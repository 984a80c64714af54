import Mathlib
import GrowthCurve.Proofs.Binary.Value

/-!
# Rounding to the nearest double

Below every power of two the doubles lie evenly, and a result is rounded to the
nearest of them. Rounding keeps doubles and keeps the order, so that a result
never passes a double that the exact number does not pass.
-/

namespace GrowthCurve.Binary

open Float.Model UnpackedFloat

/-! ## The unit of a number -/

/-- The distance of the doubles around a number is `2 ^ e`. -/
structure HasUnit (v : ℚ) (e : ℤ) : Prop where
  low : -1074 ≤ e
  full : e = -1074 ∨ 2 ^ (e + 52) ≤ |v|
  bound : |v| < 2 ^ (e + 53)

variable {v w r q : ℚ} {e f : ℤ}

theorem HasUnit.neg (h : HasUnit v e) : HasUnit (-v) e := by
  constructor
  · exact h.low
  · rw [abs_neg]
    exact h.full
  · rw [abs_neg]
    exact h.bound

theorem exists_hasUnit (v : ℚ) : ∃ e, HasUnit v e := by
  by_cases hsmall : |v| < 2 ^ (-1021 : ℤ)
  · exact ⟨-1074, le_rfl, .inl rfl, hsmall⟩
  · have hpower : (0 : ℚ) < 2 ^ (-1021 : ℤ) := by positivity
    have hpos : 0 < |v| := hpower.trans_le (not_lt.mp hsmall)
    have hlow : (2 : ℚ) ^ Int.log 2 |v| ≤ |v| := by
      exact_mod_cast Int.zpow_log_le_self one_lt_two hpos
    have hhigh : |v| < (2 : ℚ) ^ (Int.log 2 |v| + 1) := by
      exact_mod_cast Int.lt_zpow_succ_log_self one_lt_two |v|
    have hlog : -1021 < Int.log 2 |v| + 1 :=
      (zpow_lt_zpow_iff_right₀ one_lt_two).mp ((not_lt.mp hsmall).trans_lt hhigh)
    refine ⟨Int.log 2 |v| - 52, by omega, .inr ?_, ?_⟩
    · rwa [sub_add_cancel]
    · rwa [show Int.log 2 |v| - 52 + 53 = Int.log 2 |v| + 1 by ring]

/-- Numbers below a power of two have a lower unit than those above. -/
theorem HasUnit.le_of_bound (h : HasUnit v e) (hlow : -1074 ≤ f) (hv : |v| < 2 ^ (f + 53)) :
    e ≤ f := by
  rcases h.full with rfl | hfull
  · exact hlow
  · have hlt := (zpow_lt_zpow_iff_right₀ one_lt_two).mp (hfull.trans_lt hv)
    omega

theorem HasUnit.lt_of_le (h : HasUnit v e) (hv : 2 ^ f ≤ |v|) : f < e + 53 :=
  (zpow_lt_zpow_iff_right₀ one_lt_two).mp (hv.trans_lt h.bound)

theorem HasUnit.lt_of_lt (hv : HasUnit v e) (hw : HasUnit w f) (h : e < f) :
    |v| < 2 ^ (f + 52) ∧ 2 ^ (f + 52) ≤ |w| := by
  have hlow := hv.low
  refine ⟨hv.bound.trans_le ?_, hw.full.resolve_left (by omega)⟩
  exact zpow_le_zpow_right₀ one_le_two (by omega)

/-! ## The nearest double -/

/-- Rounding to the nearest multiple of the unit. -/
def Rounded (v r : ℚ) : Prop :=
  ∃ (e k : ℤ), HasUnit v e ∧ Nearest (v / 2 ^ e) k ∧ r = k * 2 ^ e

theorem Rounded.neg (h : Rounded v r) : Rounded (-v) (-r) := by
  obtain ⟨e, k, hunit, hnear, rfl⟩ := h
  refine ⟨e, -k, hunit.neg, ?_, ?_⟩
  · rw [neg_div]
    exact hnear.neg
  · push_cast
    ring

theorem Rounded.signed (h : Rounded v r) (s : Sign) : Rounded (signed s v) (signed s r) := by
  cases s with
  | negative => exact h.neg
  | positive => exact h

theorem le_of_unit_lt {k l : ℤ} (hv : HasUnit v e) (hw : HasUnit w f)
    (hk : Nearest (v / 2 ^ e) k) (hl : Nearest (w / 2 ^ f) l) (h : v ≤ w) (hlt : e < f) :
    (k * 2 ^ e : ℚ) ≤ l * 2 ^ f := by
  have hpower (e : ℤ) : (0 : ℚ) < 2 ^ e := by positivity
  obtain ⟨hbelow, habove⟩ := hv.lt_of_lt hw hlt
  have hpos : 0 < w := by
    by_contra hneg
    rw [abs_of_nonpos (h.trans (not_lt.mp hneg))] at hbelow
    rw [abs_of_nonpos (not_lt.mp hneg)] at habove
    linarith
  rw [abs_of_pos hpos] at habove
  have hkle : k ≤ 2 ^ 53 := by
    refine hk.mono (nearest_intCast (2 ^ 53)) ?_
    rw [div_le_iff₀ (hpower e)]
    calc v ≤ |v| := le_abs_self v
      _ ≤ 2 ^ (e + 53) := hv.bound.le
      _ = 2 ^ 53 * 2 ^ e := (two_pow_mul_zpow 53 e).symm
      _ = _ := by push_cast; rfl
  have hlle : 2 ^ 52 ≤ l := by
    refine (nearest_intCast (2 ^ 52)).mono hl ?_
    rw [le_div_iff₀ (hpower f)]
    calc _ = (2 : ℚ) ^ 52 * 2 ^ f := by push_cast; rfl
      _ = 2 ^ (f + 52) := two_pow_mul_zpow 52 f
      _ ≤ w := habove
  calc (k * 2 ^ e : ℚ) ≤ 2 ^ 53 * 2 ^ e :=
        mul_le_mul_of_nonneg_right (by exact_mod_cast hkle) (hpower e).le
    _ = 2 ^ (e + 53) := two_pow_mul_zpow 53 e
    _ ≤ 2 ^ (f + 52) := zpow_le_zpow_right₀ one_le_two (by omega)
    _ = 2 ^ 52 * 2 ^ f := (two_pow_mul_zpow 52 f).symm
    _ ≤ l * 2 ^ f := mul_le_mul_of_nonneg_right (by exact_mod_cast hlle) (hpower f).le

/-- Rounding keeps the order. -/
theorem Rounded.mono (hv : Rounded v r) (hw : Rounded w q) (h : v ≤ w) : r ≤ q := by
  obtain ⟨e, k, hunit, hnear, rfl⟩ := hv
  obtain ⟨f, l, hunit', hnear', rfl⟩ := hw
  rcases lt_trichotomy e f with hlt | rfl | hgt
  · exact le_of_unit_lt hunit hunit' hnear hnear' h hlt
  · have hpower : (0 : ℚ) < 2 ^ e := by positivity
    have hle := hnear.mono hnear' (div_le_div_of_nonneg_right h hpower.le)
    exact mul_le_mul_of_nonneg_right (by exact_mod_cast hle) hpower.le
  · have hneg := hnear.neg
    have hneg' := hnear'.neg
    rw [← neg_div] at hneg hneg'
    have hle := le_of_unit_lt hunit'.neg hunit.neg hneg' hneg (neg_le_neg h) hgt
    push_cast at hle
    linarith

theorem Rounded.unique (hr : Rounded v r) (hq : Rounded v q) : r = q :=
  le_antisymm (hr.mono hq le_rfl) (hq.mono hr le_rfl)

/-- Rounding keeps what has 53 bits. -/
theorem rounded_self {m : ℤ} (hm : |m| < 2 ^ 53) (he : -1074 ≤ e) :
    Rounded (m * 2 ^ e) (m * 2 ^ e) := by
  obtain ⟨f, hunit⟩ := exists_hasUnit (m * 2 ^ e)
  have hfe : f ≤ e := by
    apply hunit.le_of_bound he
    have hcast : |(m : ℚ)| < 2 ^ 53 := by exact_mod_cast hm
    calc |(m * 2 ^ e : ℚ)| = |(m : ℚ)| * 2 ^ e := by
          rw [abs_mul, abs_of_pos (show (0 : ℚ) < 2 ^ e by positivity)]
      _ < 2 ^ 53 * 2 ^ e := mul_lt_mul_of_pos_right hcast (by positivity)
      _ = 2 ^ (e + 53) := two_pow_mul_zpow 53 e
  obtain ⟨j, hj⟩ := exists_eq_mul_zpow m hfe
  refine ⟨f, j, hunit, ?_, hj⟩
  rw [hj, mul_div_cancel_right₀ _ (by positivity)]
  exact nearest_intCast j

theorem rounded_two_zpow (he : -1074 ≤ e) : Rounded (2 ^ e) (2 ^ e) := by
  have hself := rounded_self (m := 1) (by decide) he
  rwa [Int.cast_one, one_mul] at hself

theorem rounded_one : Rounded 1 1 := by
  have hself := rounded_two_zpow (e := 0) (by decide)
  rwa [zpow_zero] at hself

theorem rounded_zero : Rounded 0 0 := by
  have hself := rounded_self (m := 0) (by decide) (le_refl (-1074))
  rwa [Int.cast_zero, zero_mul] at hself

theorem Canonical.rounded {u : UnpackedFloat} (h : Canonical u) :
    Rounded (valueOf u) (valueOf u) := by
  cases h with
  | zero => exact rounded_zero
  | @finite s m e hm hbits hlow hfull =>
      have hself : Rounded (m * 2 ^ e) (m * 2 ^ e) := by
        have hcast : |(m : ℤ)| < 2 ^ 53 := by
          rw [abs_of_nonneg (Int.natCast_nonneg m)]
          exact_mod_cast hbits
        exact_mod_cast rounded_self hcast hlow
      exact hself.signed s

/-- No result gets past a double. -/
theorem Rounded.abs_le_of_le {b c : ℚ} (h : Rounded v r) (hb : Rounded b c) (hv : |v| ≤ b) :
    |r| ≤ c := by
  obtain ⟨hlow, hhigh⟩ := abs_le.mp hv
  exact abs_le.mpr ⟨hb.neg.mono h hlow, h.mono hb hhigh⟩

theorem Rounded.le_abs_of_le {b : ℚ} (h : Rounded v r) (hb : Rounded b b) (hv : b ≤ |v|) :
    b ≤ |r| := by
  rcases le_abs.mp hv with hpos | hneg
  · exact le_abs.mpr (.inl (hb.mono h hpos))
  · exact le_abs.mpr (.inr (hb.mono h.neg hneg))

/-- A result of less than half the least double is lost. -/
theorem rounded_zero_of_small (h : |v| < 2 ^ (-1075 : ℤ)) : Rounded v 0 := by
  have hhalf : |v / 2 ^ (-1074 : ℤ)| < 1 / 2 := by
    rw [abs_div, abs_of_pos (show (0 : ℚ) < 2 ^ (-1074 : ℤ) by positivity),
      div_lt_iff₀ (by positivity)]
    have hscale : (1 / 2 : ℚ) * 2 ^ (-1074 : ℤ) = 2 ^ (-1075 : ℤ) := by
      rw [show (-1074 : ℤ) = -1075 + 1 from rfl, zpow_add_one₀ two_ne_zero]
      ring
    rwa [hscale]
  refine ⟨-1074, 0, ⟨le_rfl, .inl rfl, ?_⟩, nearest_of_close ?_, by simp⟩
  · exact h.trans_le (zpow_le_zpow_right₀ one_le_two (by decide))
  · rwa [Int.cast_zero, zero_sub, abs_neg]

/-- The error is at most half a unit, also of a unit that is too large. -/
theorem Rounded.error_le (h : Rounded v r) (hlow : -1074 ≤ f) (hv : |v| < 2 ^ (f + 53)) :
    |r - v| ≤ 2 ^ f / 2 := by
  obtain ⟨e, k, hunit, hnear, rfl⟩ := h
  have hpower : (0 : ℚ) < 2 ^ e := by positivity
  have hle : e ≤ f := hunit.le_of_bound hlow hv
  calc |k * 2 ^ e - v| = |k - v / 2 ^ e| * 2 ^ e := by
        rw [← abs_of_pos hpower, ← abs_mul, abs_of_pos hpower, sub_mul,
          div_mul_cancel₀ _ hpower.ne']
    _ ≤ 1 / 2 * 2 ^ e := mul_le_mul_of_nonneg_right hnear.near hpower.le
    _ ≤ 1 / 2 * 2 ^ f := by gcongr; norm_num
    _ = 2 ^ f / 2 := by ring

/-! ## The rounding of results -/

theorem div_two_pow_lt {m drop : ℕ} (h : m.log2 ≤ drop + 52) : m / 2 ^ drop < 2 ^ 53 := by
  have hlt : m / 2 ^ drop < 2 ^ ((m / 2 ^ drop).log2 + 1) := Nat.lt_log2_self
  rw [log2_div_two_pow] at hlt
  exact hlt.trans_le (Nat.pow_le_pow_right (by decide) (by omega))

namespace Rounds

variable {m : ℕ} {a : Accuracy} {drop carry rounded : ℕ}

/-- The exponent leaves room for dropping all bits that are too many. -/
theorem unit_eq (h : Rounds m e a drop carry rounded)
    (hroom : e ≤ max (totalExponent m e - 53) (-1074)) :
    e + drop = max (m.log2 + e - 52) (-1074) := by
  have hdrop := h.drop_eq
  unfold totalExponent at hdrop hroom
  omega

/-- Above the least exponent, 53 bits are kept. -/
theorem full (h : Rounds m e a drop carry rounded)
    (hroom : e ≤ max (totalExponent m e - 53) (-1074)) (hleast : e + drop ≠ -1074) :
    m ≠ 0 ∧ 2 ^ 52 ≤ m / 2 ^ drop := by
  have hunit := h.unit_eq hroom
  unfold totalExponent at hroom
  have hlog : (m / 2 ^ drop).log2 = 52 := by
    rw [log2_div_two_pow]
    omega
  have hne : m / 2 ^ drop ≠ 0 := by
    intro hzero
    rw [hzero] at hlog
    exact absurd hlog (by decide)
  refine ⟨?_, ((Nat.log2_eq_iff hne).mp hlog).1⟩
  rintro rfl
  exact hne (Nat.zero_div _)

theorem hasUnit {x : ℚ} (h : Rounds m e a drop carry rounded) (hx : Describes m x a)
    (hroom : e ≤ max (totalExponent m e - 53) (-1074)) : HasUnit (x * 2 ^ e) (e + drop) := by
  obtain ⟨hlow, hhigh⟩ := hx.bounds
  have hunit := h.unit_eq hroom
  have hnonneg : (0 : ℚ) ≤ x * 2 ^ e := mul_nonneg (m.cast_nonneg.trans hlow) (by positivity)
  refine ⟨by omega, ?_, ?_⟩
  · rw [abs_of_nonneg hnonneg]
    by_cases hleast : e + drop = -1074
    · exact .inl hleast
    · right
      have hle : (2 ^ m.log2 : ℚ) ≤ m := by
        exact_mod_cast Nat.log2_self_le (h.full hroom hleast).1
      calc (2 : ℚ) ^ (e + drop + 52) = 2 ^ m.log2 * 2 ^ e := by
            rw [two_pow_mul_zpow]
            congr 1
            omega
        _ ≤ x * 2 ^ e := mul_le_mul_of_nonneg_right (hle.trans hlow) (by positivity)
  · rw [abs_of_nonneg hnonneg]
    have hle : (m + 1 : ℚ) ≤ 2 ^ (m.log2 + 1) := by
      exact_mod_cast (Nat.lt_log2_self : m < 2 ^ (m.log2 + 1))
    calc x * 2 ^ e < 2 ^ (m.log2 + 1) * 2 ^ e :=
          mul_lt_mul_of_pos_right (hhigh.trans_le hle) (by positivity)
      _ = 2 ^ (e + (m.log2 + 1 : ℕ)) := two_pow_mul_zpow _ e
      _ ≤ 2 ^ (e + drop + 53) := zpow_le_zpow_right₀ one_le_two (by push_cast; omega)

theorem magnitude {x : ℚ} (h : Rounds m e a drop carry rounded) (hx : Describes m x a)
    (hroom : e ≤ max (totalExponent m e - 53) (-1074)) :
    Rounded (x * 2 ^ e) (rounded * 2 ^ (e + drop)) := by
  refine ⟨e + drop, rounded, h.hasUnit hx hroom, ?_, by push_cast; rfl⟩
  have hquotient : x * 2 ^ e / 2 ^ (e + drop) = x / 2 ^ drop := by
    rw [zpow_add₀ two_ne_zero, zpow_natCast]
    field_simp
  rw [hquotient]
  exact h.nearest x hx

/-- A bit is too many only if the mantissa has become a power of two. -/
theorem carried (h : Rounds m e a drop carry rounded)
    (hroom : e ≤ max (totalExponent m e - 53) (-1074)) :
    rounded < 2 ^ 53 ∧ carry = 0 ∨ rounded = 2 ^ 53 ∧ carry = 1 := by
  have hunit := h.unit_eq hroom
  have hmantissa : m / 2 ^ drop < 2 ^ 53 := div_two_pow_lt (by omega)
  have hcarry := h.carry_eq
  unfold totalExponent at hcarry
  rcases Nat.lt_or_ge rounded (2 ^ 53) with hfits | hmany
  · refine .inl ⟨hfits, ?_⟩
    rcases Nat.eq_zero_or_pos rounded with hzero | hpos
    · rw [hzero, Nat.log2_zero] at hcarry
      omega
    · have hlog := (Nat.log2_lt hpos.ne').mpr hfits
      omega
  · obtain rfl : rounded = 2 ^ 53 := le_antisymm (h.high.trans hmantissa) hmany
    rw [Nat.log2_two_pow] at hcarry
    exact .inr ⟨rfl, by omega⟩

end Rounds

/-- A result is rounded to the nearest double, if its exponent leaves room for
the rounding. -/
theorem rounded_roundWithAccuracy (s : Sign) {m : ℕ} {a : Accuracy} {x : ℚ}
    (hx : Describes m x a) (hroom : e ≤ max (totalExponent m e - 53) (-1074)) :
    Canonical (roundWithAccuracy .binary64 s m e a) ∧
      Rounded (signed s (x * 2 ^ e)) (valueOf (roundWithAccuracy .binary64 s m e a)) := by
  obtain ⟨drop, carry, rounded, h, hresult⟩ := roundWithAccuracy_cases s m e a
  have hunit := h.unit_eq hroom
  have hmagnitude := (h.magnitude hx hroom).signed s
  rcases h.carried hroom with ⟨hfits, rfl⟩ | ⟨rfl, rfl⟩
  · rw [pow_zero, Nat.div_one, Nat.cast_zero, add_zero] at hresult
    rcases hresult with ⟨rfl, hresult⟩ | ⟨hpos, hresult⟩
    · rw [hresult]
      refine ⟨.zero, ?_⟩
      rwa [Nat.cast_zero, zero_mul, signed_zero] at hmagnitude
    · rw [hresult]
      refine ⟨.finite hfits (by omega) ?_, hmagnitude⟩
      by_cases hleast : e + drop = -1074
      · exact .inr hleast
      · exact .inl ((h.full hroom hleast).2.trans h.low)
  · rcases hresult with ⟨hzero, -⟩ | ⟨hpos, hresult⟩
    · exact absurd hzero (by decide)
    · rw [hresult]
      refine ⟨.finite (by decide) (by push_cast; omega) (.inl (by decide)), ?_⟩
      have hsame : ((2 ^ 53 : ℕ) : ℚ) * 2 ^ (e + drop) =
          ((2 ^ 53 / 2 ^ 1 : ℕ) : ℚ) * 2 ^ (e + drop + (1 : ℕ)) := by
        rw [Nat.cast_one, zpow_add_one₀ two_ne_zero]
        norm_num
        ring
      rwa [hsame] at hmagnitude

theorem shiftLeft_scaled (m : ℕ) (k : ℕ) (e : ℤ) :
    ((m <<< k : ℕ) : ℚ) * 2 ^ (e - k) = m * 2 ^ e := by
  rw [Nat.shiftLeft_eq, zpow_sub₀ two_ne_zero, zpow_natCast]
  push_cast
  field_simp

theorem rounded_round (s : Sign) {m : ℕ} (hm : 0 < m) (e : ℤ) :
    Canonical (UnpackedFloat.round .binary64 s m e) ∧
      Rounded (signed s (m * 2 ^ e)) (valueOf (UnpackedFloat.round .binary64 s m e)) := by
  obtain ⟨shift, hshift, hresult⟩ := round_cases s m e
  have hexact : Describes (m <<< shift) (m <<< shift : ℕ) .exact := rfl
  have hroom : e - shift ≤ max (totalExponent (m <<< shift) (e - shift) - 53) (-1074) := by
    unfold totalExponent at hshift ⊢
    rw [log2_shiftLeft shift hm]
    omega
  rw [hresult, ← shiftLeft_scaled m shift e]
  exact rounded_roundWithAccuracy s hexact hroom

theorem rounded_normalize (m e : ℤ) (s : Sign) :
    Canonical (UnpackedFloat.normalize .binary64 m e s) ∧
      Rounded (m * 2 ^ e) (valueOf (UnpackedFloat.normalize .binary64 m e s)) := by
  unfold UnpackedFloat.normalize
  rcases lt_trichotomy m 0 with hneg | rfl | hpos
  · rw [Int.compare_eq_lt.mpr hneg]
    have hround := rounded_round .negative (m := (-m).toNat) (by omega) e
    have hcast : (((-m).toNat : ℕ) : ℚ) = -m := by
      exact_mod_cast Int.toNat_of_nonneg (neg_nonneg.mpr hneg.le)
    rwa [hcast, signed, neg_mul, neg_neg] at hround
  · rw [Int.compare_eq_eq.mpr rfl, Int.cast_zero, zero_mul]
    exact ⟨.zero, rounded_zero⟩
  · rw [Int.compare_eq_gt.mpr hpos]
    have hround := rounded_round .positive (m := m.toNat) (by omega) e
    have hcast : ((m.toNat : ℕ) : ℚ) = m := by
      exact_mod_cast Int.toNat_of_nonneg hpos.le
    rwa [hcast, signed] at hround

end GrowthCurve.Binary
