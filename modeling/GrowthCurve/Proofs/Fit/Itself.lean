import Mathlib
import GrowthCurve.Proofs.Fit.Constant
import GrowthCurve.Proofs.Fit.Deviations

/-!
# Numbers that predict themselves

Predictions without any error score one, as they should, unless all deviations
from the mean are too small to be squared. The score is NaN then.
-/

namespace GrowthCurve.Score

open GrowthCurve.Binary Float.Model UnpackedFloat

variable {x y : Float} {ys : List Float}

/-! ## Nothing left over -/

theorem value_sub_self (hy : y.isFinite = true) :
    (y - y).isFinite = true ∧ value (y - y) = 0 := by
  have hround := roundsTo_sub hy hy
  rw [sub_self] at hround
  have hfinite := hround.isFinite (by rw [abs_zero]; positivity)
  exact ⟨hfinite, (hround.rounded hfinite).unique rounded_zero⟩

theorem abs_le_zero (hx : x.isFinite = true) (h : value x = 0) : x.abs ≤ 0 := by
  obtain ⟨s, h⟩ := unpack_of_value_eq_zero hx h
  have habs : x.abs.toModel.unpack = .zero .positive := by
    show (Float.Model.pack (UnpackedFloat.abs _)).unpack = _
    rw [h]
    exact unpack_packedZero
  refine le_iff.mpr ⟨?_, by decide, ?_⟩
  · show x.abs.toModel.unpack.isNaN = false
    rw [habs]
    rfl
  · rw [place_zero]
    unfold place
    rw [habs]

theorem residuals_self_le_zero (hfinite : ∀ y ∈ ys, y.isFinite = true) :
    ∀ r ∈ residuals ys ys, r ≤ 0 := by
  unfold residuals
  rw [List.zipWith_self, List.forall_mem_map]
  intro y hy
  obtain ⟨hfinite', hzero⟩ := value_sub_self (hfinite y hy)
  exact abs_le_zero hfinite' hzero

/-- Squares of nothing add up to nothing. -/
theorem squaredResiduals_self (hfinite : ∀ y ∈ ys, y.isFinite = true) :
    ∃ s, (squaredResiduals ys ys).toModel.unpack = .zero s := by
  have hterms : ∀ t ∈ ys.map fun y => (y - y) * (y - y), 0 ≤ t ∧ ¬ 0 < t := by
    rw [List.forall_mem_map]
    intro y hy
    obtain ⟨hfinite', hzero⟩ := value_sub_self (hfinite y hy)
    have hsquare := roundsTo_mul hfinite' hfinite'
    have hzero' : RoundsTo (value 0) 0 := roundsTo_value (by decide)
    rw [hzero, mul_zero] at hsquare
    rw [value_zero] at hzero'
    exact ⟨hzero'.le hsquare le_rfl, not_lt_of_le (hsquare.le hzero' le_rfl)⟩
  have hsum : squaredResiduals ys ys = Scalar.sum (ys.map fun y => (y - y) * (y - y)) := by
    unfold squaredResiduals
    simp only [power_two, List.zipWith_self]
  obtain ⟨hnonneg, hpos⟩ := sum_pos_iff fun t ht => (hterms t ht).1
  have hnot : ¬ 0 < Scalar.sum (ys.map fun y => (y - y) * (y - y)) := by
    rw [hpos]
    rintro ⟨t, ht, hlt⟩
    exact (hterms t ht).2 hlt
  rw [pos_iff_not_zero hnonneg, not_not] at hnot
  rw [hsum]
  exact unpack_of_value_eq_zero hnot.1 hnot.2

/-! ## The score -/

theorem one_sub_zero {s : Sign} (h : x.toModel.unpack = .zero s) : (1 : Float) - x = 1 := by
  apply eq_of_unpack_eq
  have hsub : ((1 : Float) - x).toModel.unpack =
      (Float.Model.pack (1 : Float).toModel.unpack).unpack := by
    show (Float.Model.pack (UnpackedFloat.sub .binary64 _ _)).unpack = _
    rw [h, unpack_one]
    rfl
  rw [hsub, pack_unpack_model]

theorem zero_div_pos {s : Sign} (hx : x.toModel.unpack = .zero s) (hy : 0 < y) :
    ∃ s, (x / y).toModel.unpack = .zero s := by
  show ∃ s, (Float.Model.pack (UnpackedFloat.div .binary64 _ _)).unpack = .zero s
  rw [hx]
  rcases pos_cases hy with hy | ⟨m, e, hm, hy⟩
  · rw [hy]
    exact ⟨_, unpack_packedZero⟩
  · rw [hy]
    exact ⟨_, unpack_packedZero⟩

theorem isNaN_zero_div_zero {s s' : Sign} (hx : x.toModel.unpack = .zero s)
    (hy : y.toModel.unpack = .zero s') : (x / y).isNaN = true := by
  refine (isNaN_unpack_pack _).trans ?_
  rw [hx, hy]
  rfl

theorem eq_nan_of_isNaN (h : x.isNaN = true) : x = Float.nan := by
  rwa [Float.isNaN_eq_decide_eq_nan, decide_eq_true_eq] at h

/-- Without residuals, the score is one if there are deviations, and NaN otherwise. -/
theorem score_without_residuals (hne : ys ≠ []) (hfinite : ∀ y ∈ ys, y.isFinite = true) :
    1 - squaredResiduals ys ys / squaresAbout (mean ys) ys =
      if 0 < squaresAbout (mean ys) ys then 1 else Float.nan := by
  obtain ⟨s, hresiduals⟩ := squaredResiduals_self hfinite
  split
  case isTrue hpos =>
    obtain ⟨s', hquotient⟩ := zero_div_pos hresiduals hpos
    exact one_sub_zero hquotient
  case isFalse hnot =>
    apply eq_nan_of_isNaN
    apply isNaN_sub_right
    rcases isNaN_or_nonneg_squaresAbout (mean ys) hne hfinite with ⟨-, hnan⟩ | ⟨-, hnonneg⟩
    · exact isNaN_div_right _ hnan
    · rw [pos_iff_not_zero hnonneg, not_not] at hnot
      obtain ⟨s', hzero⟩ := unpack_of_value_eq_zero hnot.1 hnot.2
      exact isNaN_zero_div_zero hresiduals hzero

/-- **The score of numbers against themselves**: it is one or NaN if they are finite.
It is one if they are all equal, or if one of them has a deviation from the mean whose
square is a positive double. So it is if two of them are `2 ^ -536` apart, and so it
is not if all of them are up to `2 ^ -540` in size but not equal, since all squares
are then lost. -/
theorem own_score (hne : ys ≠ []) (hfinite : ∀ y ∈ ys, y.isFinite = true) :
    (rSquared ys ys = .ok 1 ∨ rSquared ys ys = .ok Float.nan) ∧
    (rSquared ys ys = .ok 1 ↔ (∀ y ∈ ys, ∀ z ∈ ys, (y == z) = true) ∨
      ∃ y ∈ ys, 0 < Scalar.power (y - mean ys) 2) ∧
    (ys.length < 2 ^ 64 → (∃ y ∈ ys, ∃ z ∈ ys, 2 ^ (-536 : ℤ) ≤ value y - value z) →
      rSquared ys ys = .ok 1) ∧
    (ys.length < 2 ^ 53 → (∃ y ∈ ys, ∃ z ∈ ys, (y == z) = false) →
      (∀ y ∈ ys, |value y| ≤ 2 ^ (-540 : ℤ)) → rSquared ys ys = .ok Float.nan) := by
  have hdeviations := squaresAbout_pos_iff (mean ys) hne hfinite
  have hscore := score_without_residuals hne hfinite
  have hself := residuals_self_le_zero hfinite
  cases ys with
  | nil => exact absurd rfl hne
  | cons first rest =>
      by_cases hconstant : ∀ y ∈ first :: rest, (y == first) = true
      · have hallowed : maxResidual (first :: rest) (first :: rest) ≤ allowance first := by
          have hfirst := isNaN_of_finite (hfinite first List.mem_cons_self)
          have hnonneg := zero_le_allowance hfirst
          exact maxResidual_le_iff.mpr
            ⟨hnonneg, fun r hr => .inr (le_trans (hself r hr) hnonneg)⟩
        have hone : rSquared (first :: rest) (first :: rest) = .ok 1 := by
          rw [rSquared_of_constant rfl hconstant, ofConstant_eq, if_pos hallowed]
        refine ⟨.inl hone, iff_of_true hone (.inl (constant_iff.mp hconstant)), fun _ _ => hone, ?_⟩
        rintro - ⟨y, hy, z, hz, hunequal⟩
        rw [constant_iff.mp hconstant y hy z hz] at hunequal
        cases hunequal
      · have hunequal := mt constant_iff.mpr hconstant
        rw [rSquared_of_not_constant rfl hconstant, hscore]
        simp only [power_two]
        rw [← hdeviations]
        by_cases hpos : 0 < squaresAbout (mean (first :: rest)) (first :: rest)
        · rw [if_pos hpos]
          refine ⟨.inl rfl, iff_of_true rfl (.inr hpos), fun _ _ => rfl, ?_⟩
          intro hcount _ hsmall
          exact absurd hpos
            (not_squaresAbout_mean_pos hcount fun y hy => ⟨hfinite y hy, hsmall y hy⟩)
        · rw [if_neg hpos]
          have hnan : ¬ (.ok Float.nan : Except (FitError Float) Float) = .ok 1 := by
            decide
          refine ⟨.inr rfl, iff_of_false hnan (not_or.mpr ⟨hunequal, hpos⟩), ?_, fun _ _ _ => rfl⟩
          rintro hlength ⟨y, hy, z, hz, hapart⟩
          exact absurd (squaresAbout_mean_pos hfinite hlength hy hz hapart) hpos

theorem own_score_three_numbers :
    [1, 2.5, (-7 : Float)] ≠ [] ∧ (∀ y ∈ [1, 2.5, (-7 : Float)], y.isFinite = true) ∧
    rSquared [1, 2.5, -7] [1, 2.5, (-7 : Float)] = .ok 1 := by
  have hne : [1, 2.5, (-7 : Float)] ≠ [] := by decide
  have hfinite : ∀ y ∈ [1, 2.5, (-7 : Float)], y.isFinite = true := by decide
  have hdeviates : ∃ y ∈ [1, 2.5, (-7 : Float)],
      0 < Scalar.power (y - mean [1, 2.5, -7]) 2 := by decide +kernel
  obtain ⟨-, hone, -⟩ := own_score hne hfinite
  exact ⟨hne, hfinite, hone.mpr (.inr hdeviates)⟩

/-- The square of a number as small as this one is no positive double any more. -/
theorem own_score_of_small_numbers :
    (∀ y ∈ [0, (1e-200 : Float)], y.isFinite = true) ∧ ((0 : Float) == 1e-200) = false ∧
    rSquared [0, 1e-200] [0, (1e-200 : Float)] = .ok Float.nan ∧
    (.ok Float.nan : Except (FitError Float) Float) ≠ .ok 1 := by
  decide +kernel

end GrowthCurve.Score
