import Mathlib
import GrowthCurve.Fit.Score
import GrowthCurve.Proofs.Polynomial.LeastSquares

/-!
# Scores over exact scalars

The squared deviations from the mean vanish for constant targets only, so that
the score of any other target divides by a positive number. Order and unit of
the values change both of its sums of squares alike.
-/

namespace GrowthCurve.Score

open GrowthCurve.Polynomial (squaredError)
open scoped Exact

/-- All values are the same number. -/
def Constant {K : Type} (ys : List K) : Prop :=
  ∃ a, ∀ y ∈ ys, y = a

theorem constant_cons_iff {K : Type} {y : K} {ys : List K} :
    Constant (y :: ys) ↔ ∀ z ∈ y :: ys, z = y := by
  constructor
  · rintro ⟨a, ha⟩ z hz
    rw [ha z hz, ha y List.mem_cons_self]
  · exact fun h => ⟨y, h⟩

variable {K : Type} [Field K]

/-- Another unit for target and predictions squares into their error. -/
theorem squaredError_map_affine (a b : K) (ys ps : List K) :
    squaredError (ys.map (a * · + b)) (ps.map (a * · + b)) = a ^ 2 * squaredError ys ps := by
  induction ys generalizing ps with
  | nil => simp [squaredError]
  | cons y ys ih =>
      cases ps with
      | nil => simp [squaredError]
      | cons p ps =>
          rw [List.map_cons, List.map_cons, Polynomial.squaredError_cons,
            Polynomial.squaredError_cons, ih]
          ring

variable [LinearOrder K]

theorem squaredResiduals_eq (ys ps : List K) : squaredResiduals ys ps = squaredError ys ps := by
  simp [squaredResiduals, squaredError]

theorem squaresAbout_eq (mu : K) (ys : List K) :
    squaresAbout mu ys = squaredError ys (ys.map fun _ => mu) := by
  unfold squaresAbout squaredError
  rw [List.zipWith_map_right, List.zipWith_self]
  simp

theorem mean_eq (ys : List K) : mean ys = ys.sum / ys.length := by
  cases ys with
  | nil => simp [mean]
  | cons y ys => simp [mean]

theorem mean_perm {ys ys' : List K} (h : ys.Perm ys') : mean ys = mean ys' := by
  rw [mean_eq, mean_eq, h.sum_eq, h.length_eq]

theorem squaresAbout_mean_perm {ys ys' : List K} (h : ys.Perm ys') :
    squaresAbout (mean ys) ys = squaresAbout (mean ys') ys' := by
  unfold squaresAbout
  rw [Exact.sum_eq, Exact.sum_eq, mean_perm h]
  exact (h.map _).sum_eq

variable [IsStrictOrderedRing K]

/-! ## Deviations from the mean -/

theorem length_ne_zero {ys : List K} (hys : ys ≠ []) : (ys.length : K) ≠ 0 :=
  Nat.cast_ne_zero.mpr fun h => hys (List.length_eq_zero_iff.mp h)

theorem mean_map_affine {ys : List K} (hys : ys ≠ []) (a b : K) :
    mean (ys.map (a * · + b)) = a * mean ys + b := by
  have hlength := length_ne_zero hys
  have hsum : (ys.map (a * · + b)).sum = a * ys.sum + ys.length * b := by
    rw [List.sum_map_add, List.sum_map_mul_left, List.map_id']
    simp
  rw [mean_eq, mean_eq, List.length_map, hsum]
  field_simp

theorem squaresAbout_mean_map_affine {ys : List K} (hys : ys ≠ []) (a b : K) :
    squaresAbout (mean (ys.map (a * · + b))) (ys.map (a * · + b)) =
      a ^ 2 * squaresAbout (mean ys) ys := by
  rw [squaresAbout_eq, squaresAbout_eq, mean_map_affine hys, ← squaredError_map_affine a b,
    List.map_map, List.map_map]
  rfl

theorem map_mean_of_constant {ys : List K} (h : Constant ys) : ys.map (fun _ => mean ys) = ys := by
  obtain ⟨a, ha⟩ := h
  by_cases hys : ys = []
  · rw [hys]
    rfl
  · have hmean : mean ys = a := by
      rw [mean_eq, List.sum_eq_card_nsmul ys a ha, nsmul_eq_mul,
        mul_div_cancel_left₀ a (length_ne_zero hys)]
    rw [hmean, List.map_const']
    exact (List.eq_replicate_of_mem ha).symm

/-- Only a constant target does not deviate from its mean. -/
theorem squaresAbout_mean_eq_zero_iff {ys : List K} :
    squaresAbout (mean ys) ys = 0 ↔ Constant ys := by
  rw [squaresAbout_eq]
  constructor
  · intro h
    have hvalues := Polynomial.eq_of_squaredError_le_zero (by rw [List.length_map]) h.le
    rw [List.map_const'] at hvalues
    refine ⟨mean ys, fun y hy => ?_⟩
    rw [← hvalues] at hy
    exact List.eq_of_mem_replicate hy
  · intro h
    rw [map_mean_of_constant h, Polynomial.squaredError_self]

/-! ## Scores of predictions -/

theorem maxResidual_self (ys : List K) : maxResidual ys ys = 0 := by
  unfold maxResidual
  rw [List.zipWith_self]
  induction ys with
  | nil => simp
  | cons y ys ih => simpa using ih

/-- A target predicts itself, also if it is constant: without residuals the
tolerance does not matter, as long as it is not negative. -/
theorem ofConstant_self (y : K) (ys : List K) : ofConstant y ys ys = .ok 1 := by
  have hbound : 0 ≤ tolerance * Scalar.max (Scalar.magnitude y) (Scalar.ofNat 1) := by
    rw [Exact.max_eq]
    exact mul_nonneg Exact.tolerance_nonneg (le_max_of_le_left (abs_nonneg y))
  simp only [ofConstant, maxResidual_self]
  rw [Exact.atMost_eq, decide_eq_true hbound]
  simp

/-- The coefficient of determination. For a constant target both sums vanish
with the residuals, and the quotient is zero then. -/
theorem rSquared_eq {ys ps : List K} (hys : ys ≠ []) (hlength : ys.length = ps.length)
    (hconstant : Constant ys → ps = ys) :
    rSquared ys ps = .ok (1 - squaredError ys ps / squaresAbout (mean ys) ys) := by
  cases ys with
  | nil => exact absurd rfl hys
  | cons y rest =>
      unfold rSquared
      rw [if_neg (not_not.mpr hlength)]
      by_cases hall : Constant (y :: rest)
      · have htest : ((y :: rest).all fun z => Scalar.same z y) = true := by
          simpa using constant_cons_iff.mp hall
        simp only [htest, if_true]
        rw [hconstant hall, ofConstant_self, Polynomial.squaredError_self, zero_div, sub_zero]
      · have htest : ¬ ((y :: rest).all fun z => Scalar.same z y) = true := by
          simpa [constant_cons_iff] using hall
        simp only [if_neg htest, squaredResiduals_eq]
        simp

end GrowthCurve.Score
