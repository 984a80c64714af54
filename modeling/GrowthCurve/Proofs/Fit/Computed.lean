import Mathlib
import GrowthCurve.Fit.Basic
import GrowthCurve.Proofs.Outcome

/-!
# What a computed fit is made of

A fit is computed exactly if all checks pass, the solver finds a polynomial and
its predictions can be scored.
-/

namespace GrowthCurve.Fit

variable {α : Type} [Scalar α] {solve : Polynomial.Solver α} {xs ys : List α} {degree : Int}

theorem computeWith_eq_ok_iff {f : Fit α} :
    computeWith solve xs ys degree = .ok f ↔
      0 ≤ degree ∧ xs.length = ys.length ∧ degree.toNat + 1 ≤ xs.length ∧
      ∃ p score, Polynomial.leastSquares solve xs ys degree.toNat = .ok p ∧
        GrowthCurve.rSquared ys (xs.map p.evaluate) = .ok score ∧
        f = ⟨degree.toNat, p.coefficientsHighestFirst, xs.map p.evaluate, score, some p⟩ := by
  unfold computeWith
  split_ifs with hdegree hlength hfew
  · simp only [false_iff]
    rintro ⟨hnonneg, -⟩
    omega
  · simp only [false_iff]
    rintro ⟨-, hsame, -⟩
    exact hlength hsame
  · simp only [false_iff]
    rintro ⟨-, -, henough, -⟩
    omega
  · rw [Except.bind_eq_ok_iff]
    constructor
    · rintro ⟨p, hp, hrest⟩
      obtain ⟨score, hscore, hf⟩ := Except.bind_eq_ok_iff.mp hrest
      exact ⟨not_lt.mp hdegree, not_not.mp hlength, not_lt.mp hfew, p, score, hp, hscore,
        (Except.ok.inj hf).symm⟩
    · rintro ⟨-, -, -, p, score, hp, hscore, rfl⟩
      exact ⟨p, hp, Except.bind_eq_ok_iff.mpr ⟨score, hscore, rfl⟩⟩

/-- Over abscissae that are in order nothing is sorted, and a fit is found as
soon as the linear system is solved. -/
theorem computeWith_of_solved {n : ℕ} {p : Polynomial.Scaled α} {coefficients predicted : List α}
    {score : α} (hlength : xs.length = ys.length)
    (hsorted : xs.Pairwise fun x y => Scalar.precedes x y = true)
    (hdistinct : n + 1 ≤ (Polynomial.dropRepeats xs).length) (henough : n + 1 ≤ xs.length)
    (hshift : Polynomial.centre xs = p.shift) (hscale : Polynomial.spread p.shift xs = p.scale)
    (hsolve : solve (Polynomial.design (xs.map p.parameter) (n + 1)) (n + 1) ys =
      .ok p.coefficients)
    (hcoefficients : p.coefficientsHighestFirst = coefficients)
    (hpredicted : xs.map p.evaluate = predicted)
    (hscore : GrowthCurve.rSquared ys predicted = .ok score) :
    computeWith solve xs ys n = .ok ⟨n, coefficients, predicted, score, some p⟩ := by
  subst hcoefficients hpredicted
  have hcount : Polynomial.distinctCount xs = (Polynomial.dropRepeats xs).length := by
    unfold Polynomial.distinctCount
    rw [List.mergeSort_of_pairwise hsorted]
  have hfound : Polynomial.leastSquares solve xs ys n = .ok p := by
    unfold Polynomial.leastSquares
    simp only [hcount, if_neg (not_lt.mpr hdistinct), hshift, hscale]
    rw [show solve (Polynomial.design (xs.map fun x => (x - p.shift) / p.scale) (n + 1)) (n + 1)
      ys = .ok p.coefficients from hsolve]
  exact computeWith_eq_ok_iff.mpr
    ⟨Int.natCast_nonneg n, hlength, henough, p, score, hfound, hscore, rfl⟩

/-- A computed fit keeps the polynomial whose expansion its coefficients are. -/
theorem curve_of_computeWith {f : Fit α} (h : computeWith solve xs ys degree = .ok f) :
    ∃ p, f.curve = some p ∧ f.coefficients = p.coefficientsHighestFirst := by
  obtain ⟨-, -, -, p, score, -, -, rfl⟩ := computeWith_eq_ok_iff.mp h
  exact ⟨p, rfl, rfl⟩

/-! ## Columns of one length -/

theorem length_predicted_of_computeWith {f : Fit α} (h : computeWith solve xs ys degree = .ok f) :
    f.predicted.length = xs.length := by
  obtain ⟨-, -, -, p, score, -, -, rfl⟩ := computeWith_eq_ok_iff.mp h
  exact List.length_map _

theorem leastSquares_ne_lengthMismatch (degree n k : ℕ) :
    Polynomial.leastSquares solve xs ys degree ≠ .error (.lengthMismatch n k) := by
  unfold Polynomial.leastSquares
  dsimp only
  split_ifs with hfew
  · simp
  · split
    · simp
    · simp

theorem rSquared_ne_lengthMismatch {predicted : List α} (h : ys.length = predicted.length)
    (n k : ℕ) : GrowthCurve.rSquared ys predicted ≠ .error (.lengthMismatch n k) := by
  unfold GrowthCurve.rSquared
  rw [if_neg (not_not.mpr h)]
  cases ys with
  | nil => simp
  | cons y rest =>
      unfold Score.ofConstant
      dsimp only
      split_ifs <;> simp

/-- Columns of one length are never blamed for their lengths. -/
theorem computeWith_ne_lengthMismatch (h : xs.length = ys.length) (n k : ℕ) :
    computeWith solve xs ys degree ≠ .error (.lengthMismatch n k) := by
  unfold computeWith
  rw [if_neg (not_not.mpr h)]
  split_ifs with hdegree hfew
  · simp
  · simp
  · intro hmismatch
    rcases Except.bind_eq_error_iff.mp hmismatch with hsolve | ⟨p, -, hscore⟩
    · exact leastSquares_ne_lengthMismatch _ n k hsolve
    · rcases Except.bind_eq_error_iff.mp hscore with hscore | ⟨score, -, hpure⟩
      · have hlength : ys.length = (xs.map p.evaluate).length := by rw [List.length_map, h]
        exact rSquared_ne_lengthMismatch hlength n k hscore
      · cases hpure

end GrowthCurve.Fit
