import Mathlib
import GrowthCurve.Proofs.Fit.Minimal
import GrowthCurve.Proofs.Fit.Score
import GrowthCurve.Proofs.Polynomial.Interpolation

/-!
# The closest polynomial

With as many distinct abscissae as coefficients only one polynomial comes
closest to the target: half way between two of them there would be a closer
one. What is known of a fit over exact scalars follows from this polynomial,
whatever way the solver found it.
-/

namespace GrowthCurve.Fit

open GrowthCurve.Polynomial (squaredError FindsMinimiser parameters design)
open scoped Exact

section

variable {K : Type} [Field K]

/-- The error half way between two predictions, and how far they are apart. -/
theorem squaredError_midpoint [CharZero K] {xs ys : List K} (hlength : xs.length = ys.length)
    (f g : K → K) :
    4 * squaredError ys (xs.map fun x => (f x + g x) / 2) + squaredError (xs.map f) (xs.map g) =
      2 * squaredError ys (xs.map f) + 2 * squaredError ys (xs.map g) := by
  induction xs generalizing ys with
  | nil => simp [squaredError]
  | cons x xs ih =>
      cases ys with
      | nil => simp at hlength
      | cons y ys =>
          have hrest := ih (by simpa using hlength)
          simp only [List.map_cons, Polynomial.squaredError_cons]
          linear_combination hrest

end

variable {K : Type} [Field K] [LinearOrder K]

/-- No polynomial with as many coefficients, highest degree first, comes closer
to the target. -/
structure Closest (xs ys : List K) (n : ℕ) (c : List K) : Prop where
  length_eq : c.length = n
  minimal : ∀ q : List K, q.length = n →
    squaredError ys (xs.map (Polynomial.evaluate c)) ≤
      squaredError ys (xs.map (Polynomial.evaluate q))

namespace Closest

variable [IsStrictOrderedRing K] {xs ys xs' ys' c c' : List K} {n : ℕ}

theorem unique (hlength : xs.length = ys.length) (hdistinct : n ≤ xs.toFinset.card)
    (h : Closest xs ys n c) (h' : Closest xs ys n c') : c = c' := by
  obtain ⟨m, hm, hmidpoint⟩ := Polynomial.exists_midpoint h.length_eq h'.length_eq
  have hleast := h.minimal m hm
  have hsame : squaredError ys (xs.map (Polynomial.evaluate c')) =
      squaredError ys (xs.map (Polynomial.evaluate c)) :=
    le_antisymm (h'.minimal c h.length_eq) (h.minimal c' h'.length_eq)
  have hparallelogram :=
    squaredError_midpoint hlength (Polynomial.evaluate c) (Polynomial.evaluate c')
  rw [← List.map_congr_left fun x _ => hmidpoint x, hsame] at hparallelogram
  have hapart : squaredError (xs.map (Polynomial.evaluate c))
      (xs.map (Polynomial.evaluate c')) ≤ 0 := by
    linarith
  have hvalues := Polynomial.eq_of_squaredError_le_zero (by simp) hapart
  exact Polynomial.eq_of_evaluate_eq h.length_eq h'.length_eq hdistinct
    fun x hx => (List.map_inj_left.mp hvalues x hx).symm

/-- Other samples with the same errors, up to a common factor, have the closest
polynomial that corresponds to it. -/
theorem transport {k : K} (hk : 0 ≤ k) (h : Closest xs ys n c) (hlength : c'.length = n)
    (herror : squaredError ys' (xs'.map (Polynomial.evaluate c')) =
      k * squaredError ys (xs.map (Polynomial.evaluate c)))
    (hothers : ∀ q' : List K, q'.length = n → ∃ q : List K, q.length = n ∧
      squaredError ys' (xs'.map (Polynomial.evaluate q')) =
        k * squaredError ys (xs.map (Polynomial.evaluate q))) :
    Closest xs' ys' n c' := by
  refine ⟨hlength, fun q' hq' => ?_⟩
  obtain ⟨q, hq, hsame⟩ := hothers q' hq'
  rw [herror, hsame]
  exact mul_le_mul_of_nonneg_left (h.minimal q hq) hk

end Closest

/-! ## Fits -/

/-- The solver finds a minimiser for the design of these samples. -/
def Solves (solve : Polynomial.Solver K) (xs ys : List K) (d : ℕ) : Prop :=
  FindsMinimiser solve (design (parameters xs) (d + 1)) (d + 1) ys

/-- A fit that consists of the closest polynomial, its values and its score. -/
structure LeastSquares (f : Fit K) (xs ys : List K) (d : ℕ) : Prop where
  closest : Closest xs ys (d + 1) f.coefficients
  predicted_eq : f.predicted = xs.map (Polynomial.evaluate f.coefficients)
  evaluate_eq : ∀ z, f.evaluate z = Polynomial.evaluate f.coefficients z
  rSquared_eq : f.rSquared = 1 - squaredError ys f.predicted / Score.squaresAbout (mean ys) ys

variable [IsStrictOrderedRing K] {solve : Polynomial.Solver K} {xs ys : List K} {d : ℕ}

theorem exists_leastSquares (hlength : xs.length = ys.length)
    (hdistinct : d + 1 ≤ xs.toFinset.card) (hsolve : Solves solve xs ys d) :
    ∃ f, computeWith solve xs ys d = .ok f ∧ f.LeastSquares xs ys d := by
  obtain ⟨p, hfit, hcoefficients, hminimal⟩ := exists_scored_curve hlength hdistinct hsolve
  have hexpand : xs.map p.evaluate = xs.map (Polynomial.evaluate p.coefficientsHighestFirst) :=
    List.map_congr_left fun x _ => (p.evaluate_coefficientsHighestFirst x).symm
  have hclosest : Closest xs ys (d + 1) p.coefficientsHighestFirst := by
    refine ⟨p.length_coefficientsHighestFirst.trans hcoefficients, ?_⟩
    rw [← hexpand]
    exact hminimal
  exact ⟨_, hfit, hclosest, hexpand, fun z => (p.evaluate_coefficientsHighestFirst z).symm, rfl⟩

/-- A closest polynomial that is known beforehand is the one that is found. -/
theorem exists_leastSquares_of_closest {c : List K} (hlength : xs.length = ys.length)
    (hdistinct : d + 1 ≤ xs.toFinset.card) (hsolve : Solves solve xs ys d)
    (hclosest : Closest xs ys (d + 1) c) :
    ∃ f, computeWith solve xs ys d = .ok f ∧ f.LeastSquares xs ys d ∧ f.coefficients = c := by
  obtain ⟨f, hfit, hf⟩ := exists_leastSquares hlength hdistinct hsolve
  exact ⟨f, hfit, hf, hf.closest.unique hlength hdistinct hclosest⟩

end GrowthCurve.Fit
