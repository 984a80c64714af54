import Mathlib
import GrowthCurve.Fit.Score
import GrowthCurve.Proofs.Binary.Sums

/-!
# Deviations from the mean in doubles

The squared deviations add up to a positive number as soon as one of them is
positive. That is so if two of the numbers are `2 ^ -536` apart, and it is not so
if all numbers are below `2 ^ -540`, as their squares are lost. A number that is
not finite makes the sum NaN.
-/

namespace GrowthCurve.Score

open GrowthCurve.Binary

variable {mu : Float} {ys : List Float}

/-! ## Distances -/

theorem abs_sub_le_two_zpow {v w : ℚ} {k : ℤ} (hv : |v| ≤ 2 ^ k) (hw : |w| ≤ 2 ^ k) :
    |v - w| ≤ 2 ^ (k + 1) := by
  calc |v - w| ≤ |v| + |w| := abs_sub _ _
    _ ≤ 2 ^ k + 2 ^ k := add_le_add hv hw
    _ = 2 ^ (k + 1) := by
      rw [zpow_add_one₀ two_ne_zero]
      ring

/-- Of two numbers that are apart, one is far from any third number. -/
theorem far_of_apart {v w : ℚ} {k : ℤ} (u : ℚ) (h : 2 ^ k ≤ v - w) :
    2 ^ (k - 1) ≤ |v - u| ∨ 2 ^ (k - 1) ≤ |w - u| := by
  have hhalves : (2 : ℚ) ^ k = 2 ^ (k - 1) + 2 ^ (k - 1) := by
    rw [zpow_sub_one₀ two_ne_zero]
    ring
  by_contra hnear
  rw [not_or, not_le, not_le, abs_lt, abs_lt] at hnear
  linarith [hnear.1.2, hnear.2.1]

/-! ## Squared deviations -/

theorem squaresAbout_eq_sum (mu : Float) (ys : List Float) :
    squaresAbout mu ys = Scalar.sum (ys.map fun y => (y - mu) * (y - mu)) := by
  unfold squaresAbout
  simp only [power_two]

/-- Finite numbers have deviations from everything but NaN. -/
theorem isNaN_or_nonneg_squaresAbout (mu : Float) (hne : ys ≠ [])
    (hfinite : ∀ y ∈ ys, y.isFinite = true) :
    mu.isNaN = true ∧ (squaresAbout mu ys).isNaN = true ∨
      mu.isNaN = false ∧ 0 ≤ squaresAbout mu ys := by
  rw [squaresAbout_eq_sum]
  cases hmu : mu.isNaN with
  | true =>
      obtain ⟨y, hy⟩ := List.exists_mem_of_ne_nil ys hne
      have hdeviation : (y - mu).isNaN = true := isNaN_sub_right y hmu
      exact .inl ⟨rfl, isNaN_sum (List.mem_map_of_mem hy) (isNaN_mul_left hdeviation _)⟩
  | false =>
      refine .inr ⟨rfl, (sum_pos_iff ?_).1⟩
      rw [List.forall_mem_map]
      intro y hy
      exact square_nonneg ((isNaN_sub (hfinite y hy) mu).trans hmu)

theorem not_pos_of_isNaN {x : Float} (h : x.isNaN = true) : ¬ 0 < x := by
  intro hpos
  rw [(lt_iff.mp hpos).2.1] at h
  cases h

theorem squaresAbout_pos_iff (mu : Float) (hne : ys ≠ [])
    (hfinite : ∀ y ∈ ys, y.isFinite = true) :
    0 < squaresAbout mu ys ↔ ∃ y ∈ ys, 0 < (y - mu) * (y - mu) := by
  rcases isNaN_or_nonneg_squaresAbout mu hne hfinite with ⟨hmu, hnan⟩ | ⟨hmu, -⟩
  · refine iff_of_false (not_pos_of_isNaN hnan) ?_
    rintro ⟨y, -, hpos⟩
    exact not_pos_of_isNaN (isNaN_mul_left (isNaN_sub_right y hmu) _) hpos
  · have hterms : ∀ t ∈ ys.map fun y => (y - mu) * (y - mu), 0 ≤ t := by
      rw [List.forall_mem_map]
      intro y hy
      exact square_nonneg ((isNaN_sub (hfinite y hy) mu).trans hmu)
    rw [squaresAbout_eq_sum, (sum_pos_iff hterms).2]
    simp only [List.mem_map, exists_exists_and_eq_and]

/-- A deviation of `2 ^ -537` or more still counts once it is squared. -/
theorem square_deviation_pos {y : Float} (hy : y.isFinite = true) (hmu : mu.isNaN = false)
    (h : mu.isFinite = true → 2 ^ (-537 : ℤ) ≤ |value y - value mu|) :
    0 < (y - mu) * (y - mu) := by
  rcases isFinite_of_not_isNaN hmu with hfinite | ⟨s, hinfinite⟩
  · have hround := roundsTo_sub hy hfinite
    rcases isFinite_of_not_isNaN hround.isNaN_eq_false with hfinite' | ⟨s, hinfinite'⟩
    · apply square_pos hfinite'
      exact (hround.rounded hfinite').le_abs_of_le (rounded_two_zpow (by decide)) (h hfinite)
    · exact infinite_pos (infinite_mul_self hinfinite')
  · exact infinite_pos (infinite_mul_self (sub_infinite_of_isFinite hy hinfinite))

/-- Two numbers that are not too close make the deviations positive. -/
theorem squaresAbout_mean_pos (hfinite : ∀ y ∈ ys, y.isFinite = true)
    (hlength : ys.length < 2 ^ 64) {y z : Float} (hy : y ∈ ys) (hz : z ∈ ys)
    (hapart : 2 ^ (-536 : ℤ) ≤ value y - value z) : 0 < squaresAbout (mean ys) ys := by
  rw [squaresAbout_pos_iff _ (List.ne_nil_of_mem hy) hfinite]
  have hmean := isNaN_mean hfinite hlength
  rcases far_of_apart (value (mean ys)) hapart with hfar | hfar
  · exact ⟨y, hy, square_deviation_pos (hfinite y hy) hmean fun _ => hfar⟩
  · exact ⟨z, hz, square_deviation_pos (hfinite z hz) hmean fun _ => hfar⟩

/-- The squares of the deviations of very small numbers are all lost. -/
theorem not_squaresAbout_mean_pos (hcount : ys.length < 2 ^ 53)
    (hys : ∀ y ∈ ys, y.isFinite = true ∧ |value y| ≤ 2 ^ (-540 : ℤ)) :
    ¬ 0 < squaresAbout (mean ys) ys := by
  rcases eq_or_ne ys [] with rfl | hne
  · decide
  obtain ⟨hmean, hsmall⟩ := abs_mean_le hne (by decide) (by decide) hcount hys
  rw [squaresAbout_pos_iff _ hne fun y hy => (hys y hy).1]
  rintro ⟨y, hy, hpos⟩
  obtain ⟨hy, hbound⟩ := hys y hy
  have hexact : |value y - value (mean ys)| ≤ 2 ^ (-539 : ℤ) :=
    abs_sub_le_two_zpow hbound hsmall
  obtain ⟨hfinite, hdeviation⟩ := (roundsTo_sub hy hmean).bounded
    (rounded_two_zpow (by decide)) hexact (zpow_lt_zpow_right₀ one_lt_two (by decide))
  have hlost : |value (y - mean ys) * value (y - mean ys)| < 2 ^ (-1075 : ℤ) := by
    rw [abs_mul]
    calc _ ≤ (2 : ℚ) ^ (-539 : ℤ) * 2 ^ (-539 : ℤ) :=
          mul_le_mul hdeviation hdeviation (abs_nonneg _) (by positivity)
      _ = 2 ^ (-1078 : ℤ) := by rw [← zpow_add₀ two_ne_zero]; rfl
      _ < 2 ^ (-1075 : ℤ) := zpow_lt_zpow_right₀ one_lt_two (by decide)
  have hsquare := roundsTo_mul hfinite hfinite
  have hfinite' := hsquare.isFinite
    (hlost.le.trans (zpow_le_zpow_right₀ one_le_two (by decide)))
  have hzero := (hsquare.rounded hfinite').unique (rounded_zero_of_small hlost)
  rw [pos_iff_value hfinite', hzero] at hpos
  exact lt_irrefl _ hpos

/-- A number that is not finite has no deviation from the mean. -/
theorem isNaN_squaresAbout_mean {y : Float} (hy : y ∈ ys) (h : y.isFinite = false) :
    (squaresAbout (mean ys) ys).isNaN = true := by
  have hdeviation : (y - mean ys).isNaN = true := by
    cases hnan : y.isNaN with
    | true => exact isNaN_sub_left hnan _
    | false =>
        rcases isFinite_of_not_isNaN hnan with hfinite | ⟨s, hinfinite⟩
        · rw [hfinite] at h
          cases h
        · rcases infinite_mean hy hinfinite with hnan' | hinfinite'
          · exact isNaN_sub_right y hnan'
          · exact infinite_sub_infinite hinfinite hinfinite'
  rw [squaresAbout_eq_sum]
  exact isNaN_sum (List.mem_map_of_mem hy) (isNaN_mul_left hdeviation _)

end GrowthCurve.Score
