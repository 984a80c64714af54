import Mathlib
import GrowthCurve.Analysis
import GrowthCurve.Proofs.Fit.Computed
import GrowthCurve.Proofs.Fit.Constant
import GrowthCurve.Proofs.Fit.Deviations
import GrowthCurve.Proofs.Report.RoundTrip

/-!
# Scores that are numbers

A fit can succeed with a score that is NaN or infinite: as soon as one of the
fitted numbers is, unless all of them are equal, and also if their squared
deviations are lost or the quotient overflows. A report of such a fit is not
read back. Numbers of moderate size that are not too close are safe.
-/

namespace GrowthCurve.Score

open GrowthCurve.Binary Float.Model UnpackedFloat

variable {x y mu : Float} {ys ps : List Float}

/-! ## The quotient -/

/-- Sums of squares are NaN or not negative. -/
theorem isNaN_or_nonneg_sum_squares {ι : Type} (f : ι → Float) (l : List ι) :
    (Scalar.sum (l.map fun i => f i * f i)).isNaN = true ∨
      0 ≤ Scalar.sum (l.map fun i => f i * f i) := by
  by_cases hnan : ∃ i ∈ l, (f i).isNaN = true
  · obtain ⟨i, hi, hnan⟩ := hnan
    exact .inl (isNaN_sum (List.mem_map_of_mem hi) (isNaN_mul_left hnan _))
  · refine .inr (sum_pos_iff ?_).1
    rw [List.forall_mem_map]
    intro i hi
    exact square_nonneg (by simpa using fun h => hnan ⟨i, hi, h⟩)

theorem squaredResiduals_eq_sum (ys ps : List Float) :
    squaredResiduals ys ps =
      Scalar.sum ((ys.zip ps).map fun q => (q.1 - q.2) * (q.1 - q.2)) := by
  unfold squaredResiduals
  rw [List.map_zip_eq_zipWith]
  simp only [power_two]
  rfl

/-- Division by nothing never gives a finite number. -/
theorem isFinite_div_zero {s : Sign} (x : Float) (hy : y.toModel.unpack = .zero s) :
    (x / y).isFinite = false := by
  have hquotient : UnpackedFloat.div .binary64 x.toModel.unpack (.zero s) = .notANumber ∨
      ∃ s', UnpackedFloat.div .binary64 x.toModel.unpack (.zero s) = .infinity s' := by
    cases x.toModel.unpack with
    | notANumber | zero => exact .inl rfl
    | infinity s' | finite s' => exact .inr ⟨_, rfl⟩
  have hunpack : (x / y).toModel.unpack =
      (Float.Model.pack (UnpackedFloat.div .binary64 x.toModel.unpack (.zero s))).unpack := by
    rw [← hy]
    rfl
  rcases hquotient with hnan | ⟨s', hinfinite⟩
  · show (x / y).toModel.unpack.isFinite = false
    rw [hunpack, hnan]
    decide
  · rw [hinfinite, unpack_pack_infinity] at hunpack
    exact isFinite_of_infinite hunpack

/-- A quotient of such sums can only be finite if the divisor is positive. -/
theorem pos_of_isFinite_div (hx : x.isNaN = true ∨ 0 ≤ x) (hy : y.isNaN = true ∨ 0 ≤ y)
    (h : (x / y).isFinite = true) : 0 < y ∧ 0 ≤ x / y := by
  have hnumber := isNaN_of_finite h
  have hx : 0 ≤ x := hx.resolve_left fun hnan => by
    rw [isNaN_div_left hnan] at hnumber
    cases hnumber
  have hy : 0 ≤ y := hy.resolve_left fun hnan => by
    rw [isNaN_div_right x hnan] at hnumber
    cases hnumber
  have hpos : 0 < y := by
    rw [pos_iff_not_zero hy]
    rintro ⟨hfinite, hvalue⟩
    obtain ⟨s, hzero⟩ := unpack_of_value_eq_zero hfinite hvalue
    rw [isFinite_div_zero x hzero] at h
    cases h
  refine ⟨hpos, ?_⟩
  rcases nonneg_cases hx with hinfinite | ⟨hfinite, hvalue⟩
  · rcases infinite_div hinfinite hpos with ⟨-, hnan⟩ | hinfinite'
    · rw [hnumber] at hnan
      cases hnan
    · exact le_of_lt (infinite_pos hinfinite')
  · rcases nonneg_cases hy with hinfinite | ⟨hfinite', hvalue'⟩
    · obtain ⟨s, hzero⟩ := div_infinite_of_isFinite hfinite hinfinite
      rw [nonneg_iff_value h]
      exact (congrArg valueOf hzero).ge
    · exact (roundsTo_div hfinite hfinite' ((pos_iff_value hfinite').mp hpos).ne').nonneg
        (div_nonneg hvalue hvalue')

/-- What is missing to one is finite exactly if the quotient is. -/
theorem isFinite_one_sub (h : x.isFinite = true → 0 ≤ x) :
    ((1 : Float) - x).isFinite = x.isFinite := by
  have hone : (1 : Float).isFinite = true := by decide
  cases hnan : x.isNaN with
  | true => rw [isFinite_of_isNaN hnan, isFinite_of_isNaN (isNaN_sub_right 1 hnan)]
  | false =>
      rcases isFinite_of_not_isNaN hnan with hfinite | ⟨s, hinfinite⟩
      · have hnonneg := (nonneg_iff_value hfinite).mp (h hfinite)
        have hround := roundsTo_sub hone hfinite
        rw [value_one] at hround
        rw [hfinite]
        rcases le_total (value x) 1 with hle | hle
        · refine (hround.bounded rounded_one ?_ (one_lt_zpow₀ one_lt_two (by decide))).1
          rw [abs_le]
          constructor <;> linarith
        · refine (hround.bounded (rounded_value hfinite) ?_
            (lt_of_abs_lt (abs_value_lt hfinite))).1
          rw [abs_le]
          constructor <;> linarith
      · rw [isFinite_of_infinite hinfinite,
          isFinite_of_infinite (sub_infinite_of_isFinite hone hinfinite)]

/-! ## Numbers of moderate size -/

variable {a b : ℤ}

theorem le_of_apart {v w : ℚ} (hv : |v| ≤ 2 ^ a) (hw : |w| ≤ 2 ^ a) (h : 2 ^ b ≤ v - w) :
    b ≤ a + 1 := by
  have hle := h.trans ((le_abs_self _).trans (abs_sub_le_two_zpow hv hw))
  exact (zpow_le_zpow_iff_right₀ one_lt_two).mp hle

theorem square_sub_le (ha : -538 ≤ a) (ha' : a ≤ 484) (hx : x.isFinite = true ∧ |value x| ≤ 2 ^ a)
    (hy : y.isFinite = true ∧ |value y| ≤ 2 ^ a) :
    (x - y).isFinite = true ∧ ((x - y) * (x - y)).isFinite = true ∧
      |value ((x - y) * (x - y))| ≤ 2 ^ (2 * a + 2) := by
  obtain ⟨hfinite, hdifference⟩ := (roundsTo_sub hx.1 hy.1).bounded
    (rounded_two_zpow (by omega)) (abs_sub_le_two_zpow hx.2 hy.2)
    (zpow_lt_zpow_right₀ one_lt_two (by omega))
  refine ⟨hfinite, (roundsTo_mul hfinite hfinite).bounded (rounded_two_zpow (by omega)) ?_
    (zpow_lt_zpow_right₀ one_lt_two (by omega))⟩
  rw [abs_mul]
  calc _ ≤ (2 : ℚ) ^ (a + 1) * 2 ^ (a + 1) :=
        mul_le_mul hdifference hdifference (abs_nonneg _) (by positivity)
    _ = 2 ^ (2 * a + 2) := by
      rw [← zpow_add₀ two_ne_zero]
      congr 1
      ring

theorem le_square_sub (hb : -537 ≤ b) (hx : x.isFinite = true) (hy : y.isFinite = true)
    (hfinite : (x - y).isFinite = true) (hfinite' : ((x - y) * (x - y)).isFinite = true)
    (h : 2 ^ b ≤ |value x - value y|) : 2 ^ (2 * b) ≤ value ((x - y) * (x - y)) := by
  have hdifference : 2 ^ b ≤ |value (x - y)| :=
    ((roundsTo_sub hx hy).rounded hfinite).le_abs_of_le (rounded_two_zpow (by omega)) h
  refine (rounded_two_zpow (by omega)).mono ((roundsTo_mul hfinite hfinite).rounded hfinite') ?_
  calc (2 : ℚ) ^ (2 * b) = 2 ^ b * 2 ^ b := by
        rw [← zpow_add₀ two_ne_zero]
        congr 1
        ring
    _ ≤ |value (x - y)| * |value (x - y)| :=
        mul_le_mul hdifference hdifference (by positivity) (abs_nonneg _)
    _ = value (x - y) * value (x - y) := abs_mul_abs_self _

theorem squaredResiduals_le (ha : -538 ≤ a) (ha' : a ≤ 484) (hcount : ys.length < 2 ^ 53)
    (hys : ∀ y ∈ ys, y.isFinite = true ∧ |value y| ≤ 2 ^ a)
    (hps : ∀ p ∈ ps, p.isFinite = true ∧ |value p| ≤ 2 ^ a) :
    (squaredResiduals ys ps).isFinite = true ∧
      |value (squaredResiduals ys ps)| ≤ 2 ^ (2 * a + 55) := by
  have hterms : ∀ t ∈ (ys.zip ps).map fun q => (q.1 - q.2) * (q.1 - q.2),
      t.isFinite = true ∧ |value t| ≤ 2 ^ (2 * a + 2) := by
    rw [List.forall_mem_map]
    intro q hq
    obtain ⟨hy, hp⟩ := List.of_mem_zip hq
    exact (square_sub_le ha ha' (hys _ hy) (hps _ hp)).2
  have hlength : ((ys.zip ps).map fun q => (q.1 - q.2) * (q.1 - q.2)).length < 2 ^ 53 := by
    rw [List.length_map, List.length_zip]
    exact (min_le_left _ _).trans_lt hcount
  obtain ⟨hfinite, hbound⟩ := abs_sum_le (by omega) (by omega) hlength hterms
  rw [squaredResiduals_eq_sum]
  refine ⟨hfinite, hbound.trans ?_⟩
  have hcount' : (((ys.zip ps).map fun q => (q.1 - q.2) * (q.1 - q.2)).length : ℚ) ≤ 2 ^ 53 := by
    exact_mod_cast hlength.le
  calc _ ≤ (2 : ℚ) ^ 53 * 2 ^ (2 * a + 2) := mul_le_mul_of_nonneg_right hcount' (by positivity)
    _ = 2 ^ (2 * a + 55) := by
      rw [two_pow_mul_zpow]
      congr 1
      push_cast
      ring

theorem le_squaresAbout_mean (ha : a ≤ 484) (hb : -536 ≤ b) (hcount : ys.length < 2 ^ 53)
    (hys : ∀ y ∈ ys, y.isFinite = true ∧ |value y| ≤ 2 ^ a) {y z : Float} (hy : y ∈ ys)
    (hz : z ∈ ys) (hapart : 2 ^ b ≤ value y - value z) :
    (squaresAbout (mean ys) ys).isFinite = true ∧
      2 ^ (2 * b - 2) ≤ value (squaresAbout (mean ys) ys) := by
  have hba := le_of_apart (hys y hy).2 (hys z hz).2 hapart
  have hmean := abs_mean_le (List.ne_nil_of_mem hy) (by omega) (by omega) hcount hys
  have hterms : ∀ t ∈ ys.map fun y => (y - mean ys) * (y - mean ys),
      t.isFinite = true ∧ |value t| ≤ 2 ^ (2 * a + 2) := by
    rw [List.forall_mem_map]
    intro y hy
    exact (square_sub_le (by omega) ha (hys y hy) hmean).2
  have hnonneg : ∀ t ∈ ys.map fun y => (y - mean ys) * (y - mean ys), 0 ≤ t := by
    rw [List.forall_mem_map]
    intro y hy
    exact square_nonneg (isNaN_of_finite (square_sub_le (by omega) ha (hys y hy) hmean).1)
  rw [squaresAbout_eq_sum]
  have hfinite := (abs_sum_le (by omega) (by omega) (by rwa [List.length_map]) hterms).1
  refine ⟨hfinite, ?_⟩
  have hlarge : ∀ w ∈ ys, 2 ^ (b - 1) ≤ |value w - value (mean ys)| →
      2 ^ (2 * b - 2) ≤ value (Scalar.sum (ys.map fun y => (y - mean ys) * (y - mean ys))) := by
    intro w hw hfar
    have hmem := List.mem_map_of_mem (f := fun y => (y - mean ys) * (y - mean ys)) hw
    obtain ⟨hdifference, hsquare, -⟩ := square_sub_le (by omega) ha (hys w hw) hmean
    have hle := le_square_sub (by omega) (hys w hw).1 hmean.1 hdifference hsquare hfar
    rw [show 2 * (b - 1) = 2 * b - 2 by ring] at hle
    exact hle.trans ((le_iff_value hsquare hfinite).mp (le_sum hnonneg hmem))
  rcases far_of_apart (value (mean ys)) hapart with hfar | hfar
  · exact hlarge y hy hfar
  · exact hlarge z hz hfar

/-- Numbers of moderate size that are not too close have a finite quotient. -/
theorem isFinite_quotient (ha : a ≤ 484) (hb : -536 ≤ b) (hab : a - b ≤ 483)
    (hcount : ys.length < 2 ^ 53) (hys : ∀ y ∈ ys, y.isFinite = true ∧ |value y| ≤ 2 ^ a)
    (hps : ∀ p ∈ ps, p.isFinite = true ∧ |value p| ≤ 2 ^ a) {y z : Float} (hy : y ∈ ys)
    (hz : z ∈ ys) (hapart : 2 ^ b ≤ value y - value z) :
    (squaredResiduals ys ps / squaresAbout (mean ys) ys).isFinite = true := by
  have hba := le_of_apart (hys y hy).2 (hys z hz).2 hapart
  obtain ⟨hfinite, hresiduals⟩ := squaredResiduals_le (by omega) ha hcount hys hps
  obtain ⟨hfinite', hdeviations⟩ := le_squaresAbout_mean ha hb hcount hys hy hz hapart
  have hpower : (0 : ℚ) < 2 ^ (2 * b - 2) := by positivity
  have hpos := hpower.trans_le hdeviations
  refine (roundsTo_div hfinite hfinite' hpos.ne').isFinite ?_
  rw [abs_div, abs_of_pos hpos, div_le_iff₀ hpos]
  calc _ ≤ (2 : ℚ) ^ (2 * a + 55) := hresiduals
    _ ≤ 2 ^ (1023 + (2 * b - 2)) := zpow_le_zpow_right₀ one_le_two (by omega)
    _ = 2 ^ (1023 : ℤ) * 2 ^ (2 * b - 2) := zpow_add₀ two_ne_zero _ _
    _ ≤ 2 ^ (1023 : ℤ) * _ := mul_le_mul_of_nonneg_left hdeviations (by positivity)

/-! ## The score -/

variable {score : Float}

/-- The score of a constant target is one, and every other score comes from a quotient. -/
theorem score_cases (h : rSquared ys ps = .ok score) :
    (∀ y ∈ ys, ∀ z ∈ ys, (y == z) = true) ∧ score = 1 ∨
      (¬ ∀ y ∈ ys, ∀ z ∈ ys, (y == z) = true) ∧
        score = 1 - squaredResiduals ys ps / squaresAbout (mean ys) ys := by
  have hlength : ys.length = ps.length := by
    by_contra hne
    unfold rSquared at h
    rw [if_pos hne] at h
    cases h
  cases ys with
  | nil =>
      unfold rSquared at h
      rw [if_neg (not_not.mpr hlength)] at h
      cases h
  | cons first rest =>
      rw [← constant_iff]
      by_cases hconstant : ∀ y ∈ first :: rest, (y == first) = true
      · rw [rSquared_of_constant hlength hconstant, ofConstant_eq] at h
        split at h
        case isFalse => cases h
        case isTrue => exact .inl ⟨hconstant, (Except.ok.inj h).symm⟩
      · rw [rSquared_of_not_constant hlength hconstant] at h
        exact .inr ⟨hconstant, (Except.ok.inj h).symm⟩

/-- A score is finite for a constant target, and otherwise if the numbers are
finite, their deviations are not lost and the quotient does not overflow. -/
theorem isFinite_score_iff (h : rSquared ys ps = .ok score) :
    score.isFinite = true ↔ (∀ y ∈ ys, ∀ z ∈ ys, (y == z) = true) ∨
      (∀ y ∈ ys, y.isFinite = true) ∧ 0 < squaresAbout (mean ys) ys ∧
        (squaredResiduals ys ps / squaresAbout (mean ys) ys).isFinite = true := by
  rcases score_cases h with ⟨hconstant, rfl⟩ | ⟨hconstant, rfl⟩
  · exact iff_of_true (by decide) (.inl hconstant)
  · have hresiduals : (squaredResiduals ys ps).isNaN = true ∨ 0 ≤ squaredResiduals ys ps := by
      rw [squaredResiduals_eq_sum]
      exact isNaN_or_nonneg_sum_squares _ _
    have hdeviations : (squaresAbout (mean ys) ys).isNaN = true ∨
        0 ≤ squaresAbout (mean ys) ys := by
      rw [squaresAbout_eq_sum]
      exact isNaN_or_nonneg_sum_squares _ _
    rw [or_iff_right hconstant, isFinite_one_sub fun hquotient =>
      (pos_of_isFinite_div hresiduals hdeviations hquotient).2]
    refine ⟨fun hquotient => ?_, fun h => h.2.2⟩
    have hpos := (pos_of_isFinite_div hresiduals hdeviations hquotient).1
    refine ⟨fun y hy => ?_, hpos, hquotient⟩
    by_contra hy'
    exact not_pos_of_isNaN (isNaN_squaresAbout_mean hy (by simpa using hy')) hpos

end GrowthCurve.Score
