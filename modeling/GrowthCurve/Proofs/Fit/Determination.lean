import Mathlib
import GrowthCurve.Proofs.Fit.Closest
import GrowthCurve.Proofs.Polynomial.Line

/-!
# What a fit and its score determine

Samples of a polynomial give this polynomial back. For any other samples the
score says which part of the deviations from the mean a polynomial of the chosen
degree can explain: all of them if it meets every sample, and never less than
one of lower degree.
-/

section

open Polynomial

namespace GrowthCurve.Fit

open GrowthCurve.Polynomial (squaredError)
open scoped Exact

variable {K : Type} [Field K] [LinearOrder K]
variable {solve : Polynomial.Solver K} {xs ys : List K} {d : ℕ} {f : Fit K}

/-! ## Polynomials that a fit is compared with -/

namespace LeastSquares

theorem exists_polynomial (hf : f.LeastSquares xs ys d) :
    ∃ q : K[X], q.natDegree ≤ d ∧ f.predicted = xs.map (q.eval ·) := by
  have hdegree := Polynomial.degree_toPoly_reverse_lt hf.closest.length_eq
  refine ⟨_, Polynomial.degree_lt_succ_iff.mp hdegree, ?_⟩
  rw [hf.predicted_eq]
  exact List.map_congr_left fun x _ => Polynomial.evaluate_eq_eval f.coefficients x

theorem squaredError_le (hf : f.LeastSquares xs ys d) {q : K[X]} (hq : q.natDegree ≤ d) :
    squaredError ys f.predicted ≤ squaredError ys (xs.map (q.eval ·)) := by
  have hvalues := Polynomial.evaluate_coefficients (Polynomial.degree_lt_succ_iff.mpr hq)
  rw [hf.predicted_eq, ← List.map_congr_left fun x _ => hvalues x]
  exact hf.closest.minimal _ (Polynomial.length_coefficients q (d + 1))

/-- The mean is a polynomial of every degree. -/
theorem squaredError_le_deviations (hf : f.LeastSquares xs ys d) (hlength : xs.length = ys.length) :
    squaredError ys f.predicted ≤ Score.squaresAbout (mean ys) ys := by
  have hmean := hf.squaredError_le ((natDegree_C (mean ys)).le.trans d.zero_le)
  simp only [eval_C] at hmean
  rwa [List.map_const', hlength, ← List.map_const', ← Score.squaresAbout_eq] at hmean

/-- The polynomials of one degree are among those of every higher degree. -/
theorem squaredError_anti {g : Fit K} {e : ℕ} (hf : f.LeastSquares xs ys d)
    (hg : g.LeastSquares xs ys e) (hdegree : d ≤ e) :
    squaredError ys g.predicted ≤ squaredError ys f.predicted := by
  obtain ⟨q, hq, hvalues⟩ := hf.exists_polynomial
  rw [hvalues]
  exact hg.squaredError_le (hq.trans hdegree)

variable [IsStrictOrderedRing K]

theorem predicted_eq_iff (hf : f.LeastSquares xs ys d) (hlength : xs.length = ys.length) :
    f.predicted = ys ↔ ∃ q : K[X], q.natDegree ≤ d ∧ xs.map (q.eval ·) = ys := by
  constructor
  · intro hmet
    obtain ⟨q, hq, hvalues⟩ := hf.exists_polynomial
    exact ⟨q, hq, hvalues ▸ hmet⟩
  · rintro ⟨q, hq, hmet⟩
    have hpredicted : ys.length = f.predicted.length := by
      rw [hf.predicted_eq, List.length_map, hlength]
    exact eq_of_squaredError_le hpredicted (hf.squaredError_le hq) hmet

/-- A fit scores one only if it meets every sample: without deviations from
the mean there is no error either. -/
theorem rSquared_eq_one_iff (hf : f.LeastSquares xs ys d) (hlength : xs.length = ys.length) :
    f.rSquared = 1 ↔ f.predicted = ys := by
  have hpredicted : ys.length = f.predicted.length := by
    rw [hf.predicted_eq, List.length_map, hlength]
  constructor
  · intro hone
    have hquotient : squaredError ys f.predicted / Score.squaresAbout (mean ys) ys = 0 := by
      rw [hf.rSquared_eq] at hone
      linarith
    apply Polynomial.eq_of_squaredError_le_zero hpredicted
    rcases div_eq_zero_iff.mp hquotient with herror | hdeviations
    · exact herror.le
    · exact hdeviations ▸ hf.squaredError_le_deviations hlength
  · intro hmet
    rw [hf.rSquared_eq, hmet, Polynomial.squaredError_self, zero_div, sub_zero]

theorem rSquared_nonneg (hf : f.LeastSquares xs ys d) (hlength : xs.length = ys.length) :
    0 ≤ f.rSquared := by
  have herror := Polynomial.squaredError_nonneg ys f.predicted
  have hdeviations := hf.squaredError_le_deviations hlength
  rw [hf.rSquared_eq, sub_nonneg]
  exact div_le_one_of_le₀ hdeviations (herror.trans hdeviations)

/-- A smaller error is a higher score. -/
theorem rSquared_mono {g : Fit K} {e : ℕ} (hf : f.LeastSquares xs ys d)
    (hg : g.LeastSquares xs ys e) (hlength : xs.length = ys.length)
    (herror : squaredError ys g.predicted ≤ squaredError ys f.predicted) :
    f.rSquared ≤ g.rSquared := by
  have hdeviations : 0 ≤ Score.squaresAbout (mean ys) ys :=
    (Polynomial.squaredError_nonneg ys f.predicted).trans (hf.squaredError_le_deviations hlength)
  rw [hf.rSquared_eq, hg.rSquared_eq]
  exact sub_le_sub_left (div_le_div_of_nonneg_right herror hdeviations) 1

theorem rSquared_le_one (hf : f.LeastSquares xs ys d) (hlength : xs.length = ys.length) :
    f.rSquared ≤ 1 := by
  have herror := Polynomial.squaredError_nonneg ys f.predicted
  have hdeviations := hf.squaredError_le_deviations hlength
  rw [hf.rSquared_eq, sub_le_self_iff]
  exact div_nonneg herror (herror.trans hdeviations)

end LeastSquares

variable [IsStrictOrderedRing K]

/-! ## Exact samples -/

/-- **Polynomials are recovered**: whatever the order and the repetitions of the
abscissae, a fit to values of a polynomial has its values everywhere, its coefficients
behind zeros for the powers that it lacks, and the score one. Through enough distinct
points there is one polynomial of the degree, and only that one leaves no error. -/
theorem polynomial_recovered {q : K[X]} (hq : q.natDegree ≤ d)
    (hdistinct : d + 1 ≤ xs.toFinset.card) (hsolve : Solves solve xs (xs.map (q.eval ·)) d) :
    ∃ f, computeWith solve xs (xs.map (q.eval ·)) d = .ok f ∧
      f.predicted = xs.map (q.eval ·) ∧
      f.rSquared = 1 ∧
      f.coefficients = ((List.range (d + 1)).map q.coeff).reverse ∧
      ∀ z, f.evaluate z = q.eval z := by
  have hlength : xs.length = (xs.map (q.eval ·)).length := by rw [List.length_map]
  have hvalues := Polynomial.evaluate_coefficients (Polynomial.degree_lt_succ_iff.mpr hq)
  have hsame : xs.map (Polynomial.evaluate (Polynomial.coefficients q (d + 1))) =
      xs.map (q.eval ·) :=
    List.map_congr_left fun x _ => hvalues x
  have hclosest : Closest xs (xs.map (q.eval ·)) (d + 1) (Polynomial.coefficients q (d + 1)) := by
    refine ⟨Polynomial.length_coefficients q (d + 1), fun c _ => ?_⟩
    rw [hsame, Polynomial.squaredError_self]
    exact Polynomial.squaredError_nonneg _ _
  obtain ⟨f, hfit, hf, hcoefficients⟩ :=
    exists_leastSquares_of_closest hlength hdistinct hsolve hclosest
  have hmet : f.predicted = xs.map (q.eval ·) := by
    rw [hf.predicted_eq, hcoefficients, hsame]
  refine ⟨f, hfit, hmet, (hf.rSquared_eq_one_iff hlength).mpr hmet, hcoefficients, fun z => ?_⟩
  rw [hf.evaluate_eq, hcoefficients, hvalues]

theorem polynomial_recovered_line :
    (C 2 * X + C 1 : ℚ[X]).natDegree ≤ 1 ∧ 2 ≤ [3, 0, 3, (1 : ℚ)].toFinset.card ∧
    Solves Polynomial.Line.solve [3, 0, 3, (1 : ℚ)] [7, 1, 7, 3] 1 ∧
    ∃ f, computeWith Polynomial.Line.solve [3, 0, 3, (1 : ℚ)] [7, 1, 7, 3] (1 : ℕ) = .ok f ∧
      f.predicted = [7, 1, 7, 3] ∧ f.rSquared = 1 ∧ f.coefficients = [2, 1] ∧
      ∀ z, f.evaluate z = 2 * z + 1 := by
  have hdegree : (C 2 * X + C 1 : ℚ[X]).natDegree ≤ 1 := natDegree_linear_le
  have hdistinct : 2 ≤ [3, 0, 3, (1 : ℚ)].toFinset.card := by decide
  have hvalues : [3, 0, 3, (1 : ℚ)].map ((C 2 * X + C 1 : ℚ[X]).eval ·) = [7, 1, 7, 3] := by
    norm_num
  have hsolve : Solves Polynomial.Line.solve [3, 0, 3, (1 : ℚ)] [7, 1, 7, 3] 1 :=
    Polynomial.Line.findsMinimiser_line rfl hdistinct
  have hfit := polynomial_recovered hdegree hdistinct (hvalues ▸ hsolve)
  rw [hvalues] at hfit
  obtain ⟨f, hfit, hpredicted, hscore, hcoefficients, hevaluate⟩ := hfit
  refine ⟨hdegree, hdistinct, hsolve, f, hfit, hpredicted, hscore, ?_, fun z => ?_⟩
  · rw [hcoefficients]
    simp [List.range_succ, coeff_one]
  · rw [hevaluate]
    simp

/-! ## The score -/

/-- **What a score says of a degree**: a fit explains a part of the deviations from the
mean, and everything if and only if a polynomial of its degree meets all samples. A
higher degree explains as much or more, since it has the lower ones among its own. -/
theorem score_of_degree (hlength : xs.length = ys.length) (hdistinct : d + 1 ≤ xs.toFinset.card)
    (hsolve : Solves solve xs ys d) :
    ∃ f, computeWith solve xs ys d = .ok f ∧
      0 ≤ f.rSquared ∧ f.rSquared ≤ 1 ∧
      (f.rSquared = 1 ↔ ∃ q : K[X], q.natDegree ≤ d ∧ xs.map (q.eval ·) = ys) ∧
      (xs.Nodup ∧ xs.length = d + 1 ∨ Score.Constant ys → f.rSquared = 1) ∧
      ∀ e, d ≤ e → e + 1 ≤ xs.toFinset.card → Solves solve xs ys e →
        ∃ g, computeWith solve xs ys e = .ok g ∧ f.rSquared ≤ g.rSquared := by
  obtain ⟨f, hfit, hf⟩ := exists_leastSquares hlength hdistinct hsolve
  have hone : f.rSquared = 1 ↔ ∃ q : K[X], q.natDegree ≤ d ∧ xs.map (q.eval ·) = ys :=
    (hf.rSquared_eq_one_iff hlength).trans (hf.predicted_eq_iff hlength)
  refine ⟨f, hfit, hf.rSquared_nonneg hlength, hf.rSquared_le_one hlength, hone, ?_, ?_⟩
  · rintro (⟨hnodup, hsamples⟩ | hconstant)
    · obtain ⟨q, hq, hmet⟩ := Polynomial.exists_interpolating hnodup hlength
      rw [hsamples] at hq
      exact hone.mpr ⟨q, Polynomial.degree_lt_succ_iff.mp hq, hmet⟩
    · obtain ⟨a, ha⟩ := hconstant
      refine hone.mpr ⟨C a, (natDegree_C a).le.trans d.zero_le, ?_⟩
      simp only [eval_C]
      rw [List.map_const', hlength]
      exact (List.eq_replicate_of_mem ha).symm
  · intro e hdegree hdistinct hsolve
    obtain ⟨g, hfit', hg⟩ := exists_leastSquares hlength hdistinct hsolve
    exact ⟨g, hfit', hf.rSquared_mono hg hlength (hf.squaredError_anti hg hdegree)⟩

/-- A line explains no less of three samples than their mean, and all of two. -/
theorem score_of_degree_samples :
    1 ≤ [0, 1, (2 : ℚ)].toFinset.card ∧ 2 ≤ [0, 1, (2 : ℚ)].toFinset.card ∧
    Solves Polynomial.Line.solve [0, 1, (2 : ℚ)] [1, 3, 2] 0 ∧
    Solves Polynomial.Line.solve [0, 1, (2 : ℚ)] [1, 3, 2] 1 ∧
    (∃ f g, computeWith Polynomial.Line.solve [0, 1, (2 : ℚ)] [1, 3, 2] (0 : ℕ) = .ok f ∧
      computeWith Polynomial.Line.solve [0, 1, (2 : ℚ)] [1, 3, 2] (1 : ℕ) = .ok g ∧
      0 ≤ f.rSquared ∧ f.rSquared ≤ 1 ∧
      (f.rSquared = 1 ↔ ∃ q : ℚ[X], q.natDegree ≤ 0 ∧ [0, 1, 2].map (q.eval ·) = [1, 3, 2]) ∧
      f.rSquared ≤ g.rSquared) ∧
    ∃ f, computeWith Polynomial.Line.solve [4, (2 : ℚ)] [1, 5] (1 : ℕ) = .ok f ∧
      f.rSquared = 1 := by
  have hlength : [0, 1, (2 : ℚ)].length = [1, 3, (2 : ℚ)].length := rfl
  have hmean : 1 ≤ [0, 1, (2 : ℚ)].toFinset.card := by decide
  have hline : 2 ≤ [0, 1, (2 : ℚ)].toFinset.card := by decide
  have hsolveMean : Solves Polynomial.Line.solve [0, 1, (2 : ℚ)] [1, 3, 2] 0 :=
    Polynomial.Line.findsMinimiser_constant hlength
  have hsolveLine : Solves Polynomial.Line.solve [0, 1, (2 : ℚ)] [1, 3, 2] 1 :=
    Polynomial.Line.findsMinimiser_line hlength hline
  obtain ⟨f, hfit, hnonneg, hle, hone, -, hhigher⟩ := score_of_degree hlength hmean hsolveMean
  obtain ⟨g, hfit', hmono⟩ := hhigher 1 (Nat.zero_le 1) hline hsolveLine
  have hlength' : [4, (2 : ℚ)].length = [1, (5 : ℚ)].length := rfl
  have htwo : 2 ≤ [4, (2 : ℚ)].toFinset.card := by decide
  obtain ⟨h, hfit'', -, -, -, hmeets, -⟩ := score_of_degree hlength' htwo
    (Polynomial.Line.findsMinimiser_line hlength' htwo)
  exact ⟨hmean, hline, hsolveMean, hsolveLine,
    ⟨f, g, hfit, hfit', hnonneg, hle, hone, hmono⟩, h, hfit'', hmeets (.inl ⟨by decide, rfl⟩)⟩

end GrowthCurve.Fit

end
