import Mathlib
import GrowthCurve.Proofs.Fit.Score

/-!
# The coefficient of determination

A constant prediction misses a target by its deviations from the average and, on
top of them, by the distance of the prediction from the average at every sample.
Over exact scalars the score is therefore the coefficient of determination: the
average scores zero, and no constant scores more. A constant target has no
deviations; its score is decided by the largest residual.
-/

namespace GrowthCurve.Score

open GrowthCurve.Polynomial (squaredError)
open scoped Exact

variable {K : Type} [Field K]

/-- The sum of the squared deviations from the average. -/
def deviations (ys : List K) : K :=
  (ys.map fun y => (y - ys.sum / ys.length) ^ 2).sum

/-! ## Deviations -/

theorem ne_nil_of_varying {ys : List K} (h : ¬ Constant ys) : ys ≠ [] := by
  rintro rfl
  exact h ⟨0, fun _ hy => absurd hy List.not_mem_nil⟩

/-- How the squares about a point change when the point is moved. -/
theorem squares_about_moved (m c : K) (ys : List K) :
    (ys.map fun y => (y - c) ^ 2).sum =
      (ys.map fun y => (y - m) ^ 2).sum + 2 * (m - c) * (ys.sum - ys.length * m) +
        ys.length * (m - c) ^ 2 := by
  induction ys with
  | nil => simp
  | cons y ys ih =>
      simp only [List.map_cons, List.sum_cons, List.length_cons, Nat.cast_succ, ih]
      ring

variable [LinearOrder K]

theorem squaresAbout_mean (ys : List K) : squaresAbout (mean ys) ys = deviations ys := by
  simp [squaresAbout, deviations, mean_eq]

/-- The distances between a target and its predictions. -/
def distances (actual predicted : List K) : List K :=
  List.zipWith (fun y p => |y - p|) actual predicted

variable [IsStrictOrderedRing K] {actual predicted : List K}

theorem deviations_pos (h : ¬ Constant actual) : 0 < deviations actual := by
  have hnonneg := Polynomial.squaredError_nonneg actual (actual.map fun _ => mean actual)
  rw [← squaresAbout_eq] at hnonneg
  rw [← squaresAbout_mean]
  exact hnonneg.lt_of_ne' (mt squaresAbout_mean_eq_zero_iff.mp h)

/-- The error of a constant prediction: about the average the middle term of
`squares_about_moved` vanishes. -/
theorem squaredError_of_constant {c : K} (hlength : actual.length = predicted.length)
    (hsome : actual ≠ []) (hc : ∀ p ∈ predicted, p = c) :
    squaredError actual predicted =
      deviations actual + actual.length * (actual.sum / actual.length - c) ^ 2 := by
  have hpredicted : predicted = actual.map fun _ => c := by
    rw [List.map_const', hlength]
    exact List.eq_replicate_of_mem hc
  have haverage : actual.sum - actual.length * (actual.sum / actual.length) = 0 := by
    rw [mul_div_cancel₀ _ (length_ne_zero hsome), sub_self]
  rw [hpredicted, ← squaresAbout_eq]
  unfold squaresAbout deviations
  simp only [Exact.sum_eq, Exact.power_eq]
  rw [squares_about_moved (actual.sum / actual.length) c, haverage, mul_zero, add_zero]

/-! ## Scores of targets that vary -/

theorem rSquared_of_varying (hlength : actual.length = predicted.length) (h : ¬ Constant actual) :
    rSquared actual predicted = .ok (1 - squaredError actual predicted / deviations actual) := by
  rw [rSquared_eq (ne_nil_of_varying h) hlength fun hconstant => absurd hconstant h,
    squaresAbout_mean]

/-- Nothing but the target itself is without error. -/
theorem score_eq_one_iff (hlength : actual.length = predicted.length) (h : ¬ Constant actual) :
    1 - squaredError actual predicted / deviations actual = 1 ↔ predicted = actual := by
  have hpos := deviations_pos h
  rw [sub_eq_self, div_eq_zero_iff, or_iff_left hpos.ne']
  constructor
  · intro herror
    exact Polynomial.eq_of_squaredError_le_zero hlength herror.le
  · rintro rfl
    exact Polynomial.squaredError_self _

theorem score_le_one (h : ¬ Constant actual) :
    1 - squaredError actual predicted / deviations actual ≤ 1 := by
  have herror := Polynomial.squaredError_nonneg actual predicted
  exact sub_le_self 1 (div_nonneg herror (deviations_pos h).le)

/-- A constant explains nothing of the deviations, and the average is the one
that does no harm. -/
theorem score_of_constant_predictions {c : K} (hlength : actual.length = predicted.length)
    (h : ¬ Constant actual) (hc : ∀ p ∈ predicted, p = c) :
    1 - squaredError actual predicted / deviations actual ≤ 0 ∧
      (1 - squaredError actual predicted / deviations actual = 0 ↔
        c = actual.sum / actual.length) := by
  have hpos := deviations_pos h
  have hsome := ne_nil_of_varying h
  have hcount : (0 : K) < actual.length := Nat.cast_pos.mpr (List.length_pos_iff.mpr hsome)
  have hscore : 1 - squaredError actual predicted / deviations actual =
      -(actual.length * (actual.sum / actual.length - c) ^ 2 / deviations actual) := by
    rw [squaredError_of_constant hlength hsome hc, add_div, div_self hpos.ne']
    ring
  rw [hscore]
  constructor
  · exact neg_nonpos.mpr (div_nonneg (mul_nonneg hcount.le (sq_nonneg _)) hpos.le)
  · rw [neg_eq_zero, div_eq_zero_iff, or_iff_left hpos.ne', mul_eq_zero,
      or_iff_right hcount.ne', sq_eq_zero_iff, sub_eq_zero]
    exact eq_comm

/-! ## Scores of constant targets -/

theorem maxResidual_eq (actual predicted : List K) :
    maxResidual actual predicted = (distances actual predicted).foldl max 0 := by
  simp [maxResidual, distances]

theorem distances_nonneg {r : K} (hr : r ∈ distances actual predicted) : 0 ≤ r := by
  unfold distances at hr
  rw [← List.map_uncurry_zip_eq_zipWith] at hr
  obtain ⟨⟨y, p⟩, -, rfl⟩ := List.mem_map.mp hr
  exact abs_nonneg (y - p)

theorem maxResidual_le_bound_iff {bound : K} (h : 0 ≤ bound) :
    maxResidual actual predicted ≤ bound ↔ ∀ r ∈ distances actual predicted, r ≤ bound := by
  obtain ⟨hmem, hupper⟩ := Exact.isGreatest_foldl_max 0 (distances actual predicted)
  rw [maxResidual_eq]
  constructor
  · intro hle r hr
    exact (hupper (List.mem_cons_of_mem _ hr)).trans hle
  · intro hle
    rcases List.mem_cons.mp hmem with hzero | hmem
    · exact hzero.trans_le h
    · exact hle _ hmem

/-- Residuals are not negative, so that the zero the fold starts with is never
above all of them. -/
theorem isGreatest_maxResidual (h : distances actual predicted ≠ []) :
    IsGreatest {r | r ∈ distances actual predicted} (maxResidual actual predicted) := by
  obtain ⟨hmem, hupper⟩ := Exact.isGreatest_foldl_max 0 (distances actual predicted)
  rw [← maxResidual_eq] at hmem hupper
  refine ⟨?_, fun r hr => hupper (List.mem_cons_of_mem _ hr)⟩
  rcases List.mem_cons.mp hmem with hzero | hmem
  · obtain ⟨r, hr⟩ := List.exists_mem_of_ne_nil _ h
    have hle : r ≤ 0 := hzero ▸ hupper (List.mem_cons_of_mem _ hr)
    show maxResidual actual predicted ∈ distances actual predicted
    rwa [hzero, ← le_antisymm hle (distances_nonneg hr)]
  · exact hmem

theorem tolerance_eq : (tolerance : K) = 1 / 10 ^ 9 := by
  unfold tolerance
  norm_num

theorem rSquared_of_constant_value {value : K} (hlength : actual.length = predicted.length)
    (hsome : actual ≠ []) (h : ∀ y ∈ actual, y = value) :
    rSquared actual predicted =
      if maxResidual actual predicted ≤ 1 / 10 ^ 9 * max |value| 1 then .ok 1
      else .error (.degenerate value (maxResidual actual predicted)) := by
  cases actual with
  | nil => exact absurd rfl hsome
  | cons first rest =>
      obtain rfl := h first List.mem_cons_self
      have htest : ((first :: rest).all fun z => Scalar.same z first) = true := by
        simpa using h
      unfold rSquared
      rw [if_neg (not_not.mpr hlength)]
      simp only [htest, if_true]
      unfold ofConstant
      simp [tolerance_eq]

/-! ## All targets -/

/-- **The coefficient of determination**: columns of different lengths and empty ones
are refused. For a target that varies, the score is the part of its deviations that is
explained, which is one at the most and zero for the mean. A constant target scores
one if it is met up to a tolerance, and otherwise the largest residual is reported. -/
theorem coefficient_of_determination (actual predicted : List K) :
    (actual.length ≠ predicted.length →
      rSquared actual predicted = .error (.lengthMismatch predicted.length actual.length)) ∧
    (actual.length = predicted.length →
      (actual = [] → rSquared actual predicted = .error (.insufficientData 1 0)) ∧
      (¬ Constant actual →
        0 < deviations actual ∧
        ∃ score, rSquared actual predicted = .ok score ∧
          score = 1 - squaredError actual predicted / deviations actual ∧
          score ≤ 1 ∧ (score = 1 ↔ predicted = actual) ∧
          ∀ c, (∀ p ∈ predicted, p = c) →
            score ≤ 0 ∧ (score = 0 ↔ c = actual.sum / actual.length)) ∧
      ∀ value, actual ≠ [] → (∀ y ∈ actual, y = value) →
        (rSquared actual predicted = .ok 1 ↔
          ∀ r ∈ distances actual predicted, r ≤ 1 / 10 ^ 9 * max |value| 1) ∧
        ((∃ r ∈ distances actual predicted, 1 / 10 ^ 9 * max |value| 1 < r) →
          ∃ largest, IsGreatest {r | r ∈ distances actual predicted} largest ∧
            rSquared actual predicted = .error (.degenerate value largest))) := by
  refine ⟨fun hlength => if_pos hlength, fun hlength => ⟨?_, ?_, ?_⟩⟩
  · rintro rfl
    exact if_neg (not_not.mpr hlength)
  · intro h
    exact ⟨deviations_pos h, _, rSquared_of_varying hlength h, rfl, score_le_one h,
      score_eq_one_iff hlength h, fun c => score_of_constant_predictions hlength h⟩
  · intro value hsome h
    have hmet : maxResidual actual predicted ≤ 1 / 10 ^ 9 * max |value| 1 ↔
        ∀ r ∈ distances actual predicted, r ≤ 1 / 10 ^ 9 * max |value| 1 :=
      maxResidual_le_bound_iff (by positivity)
    rw [rSquared_of_constant_value hlength hsome h, ← hmet]
    constructor
    · split_ifs with hle
      · exact iff_of_true rfl hle
      · exact iff_of_false (by simp) hle
    · rintro ⟨r, hr, hmissed⟩
      rw [if_neg fun hle => absurd (hmet.mp hle r hr) (not_le.mpr hmissed)]
      exact ⟨_, isGreatest_maxResidual (List.ne_nil_of_mem hr), rfl⟩

theorem coefficient_of_determination_rationals :
    rSquared [1] [1, (2 : ℚ)] = .error (.lengthMismatch 2 1) ∧
    rSquared [] ([] : List ℚ) = .error (.insufficientData 1 0) ∧
    rSquared [1, 2, 6] [3, 3, (3 : ℚ)] = .ok 0 ∧
    rSquared [5, 5] [5, (5.000000001 : ℚ)] = .ok 1 ∧
    ∃ largest, IsGreatest {r | r ∈ [0, (1 : ℚ)]} largest ∧
      rSquared [5, 5] [5, (6 : ℚ)] = .error (.degenerate 5 largest) := by
  have hvaries : ¬ Constant [1, 2, (6 : ℚ)] := by
    rw [constant_cons_iff]
    norm_num
  obtain ⟨-, score, hscore, -, -, -, hconstant⟩ :=
    ((coefficient_of_determination [1, 2, 6] [3, 3, (3 : ℚ)]).2 rfl).2.1 hvaries
  have hzero : score = 0 := (hconstant 3 (by simp)).2.mpr (by norm_num)
  have hmet := ((coefficient_of_determination [5, 5] [5, (5.000000001 : ℚ)]).2 rfl).2.2 5
    (by simp) (by simp)
  have hmissed := ((coefficient_of_determination [5, 5] [5, (6 : ℚ)]).2 rfl).2.2 5
    (by simp) (by simp)
  refine ⟨(coefficient_of_determination [1] [1, (2 : ℚ)]).1 (by decide),
    ((coefficient_of_determination [] ([] : List ℚ)).2 rfl).1 rfl, hzero ▸ hscore,
    hmet.1.mpr (by norm_num [distances]), ?_⟩
  have hdistances : distances [5, 5] [5, (6 : ℚ)] = [0, 1] := by norm_num [distances]
  rw [hdistances] at hmissed
  exact hmissed.2 ⟨1, by simp, by norm_num⟩

end GrowthCurve.Score
