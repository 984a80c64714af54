import Mathlib
import GrowthCurve.Proofs.Binary.Sums

/-!
# Lengths in doubles

A length is NaN or not negative. Sides of at most one have a length of less than
four.
-/

namespace GrowthCurve.Binary

open Float.Model UnpackedFloat

variable {x y : Float}

theorem Below.abs_value_lt {n : ℤ} (h : Below n x) : |value x| < 2 ^ n := by
  have hcanonical := canonical_unpack h.isFinite
  rcases h.cases with ⟨s, hx⟩ | ⟨s, m, e, hm, hx, hexponent, -⟩
  · have hzero : value x = 0 := congrArg valueOf hx
    rw [hzero, abs_zero]
    positivity
  · rw [hx] at hcanonical
    cases hcanonical with
    | finite hbits =>
        have hvalue : value x = signed s (m * 2 ^ e) := congrArg valueOf hx
        rw [hvalue, abs_signed, abs_of_pos (magnitude_pos e hm)]
        exact (magnitude_lt_zpow e hbits).trans_le (zpow_le_zpow_right₀ one_le_two hexponent)

/-! ## Sums of squares -/

theorem value_mul_self {b : Binary} (h : ofFloat? x = some b) :
    value x * value x = (b.mantissa * b.mantissa : ℕ) * 2 ^ (2 * b.exponent) := by
  rw [value_of_ofFloat? h, two_mul, zpow_add₀ two_ne_zero]
  push_cast
  split
  · ring
  · ring

theorem two_pow_toNat_mul {e f : ℤ} (m : ℕ) (h : f ≤ e) :
    ((m * Nat.pow 2 (e - f).toNat : ℕ) : ℚ) * 2 ^ f = m * 2 ^ e := by
  have hpower : ((Nat.pow 2 (e - f).toNat : ℕ) : ℚ) = 2 ^ (e - f) := by
    rw [Nat.pow_eq, Nat.cast_pow, ← zpow_natCast, Int.toNat_of_nonneg (by omega)]
    rfl
  rw [Nat.cast_mul, hpower, mul_assoc, ← zpow_add₀ two_ne_zero, sub_add_cancel]

/-- The sum of two squares, exactly. -/
theorem addMagnitudes_square {a b : Binary} (ha : ofFloat? x = some a) (hb : ofFloat? y = some b) :
    ((a.square.addMagnitudes b.square).mantissa : ℚ) *
      2 ^ (a.square.addMagnitudes b.square).exponent = value x * value x + value y * value y := by
  rw [value_mul_self ha, value_mul_self hb,
    ← two_pow_toNat_mul _ (min_le_left (2 * a.exponent) (2 * b.exponent)),
    ← two_pow_toNat_mul _ (min_le_right (2 * a.exponent) (2 * b.exponent)), ← add_mul]
  unfold addMagnitudes square
  push_cast
  rfl

/-! ## Square roots -/

theorem two_mul_log2_sqrt_le (m : ℕ) : 2 * m.sqrt.log2 ≤ m.log2 := by
  rcases Nat.eq_zero_or_pos m with rfl | hm
  · decide
  · have hroot : 2 ^ m.sqrt.log2 ≤ m.sqrt := Nat.log2_self_le (Nat.sqrt_pos.mpr hm).ne'
    rw [Nat.le_log2 hm.ne']
    calc 2 ^ (2 * m.sqrt.log2) = 2 ^ m.sqrt.log2 * 2 ^ m.sqrt.log2 := by rw [two_mul, pow_add]
      _ ≤ m.sqrt * m.sqrt := Nat.mul_le_mul hroot hroot
      _ ≤ m := Nat.sqrt_le m

/-- The square root halves the exponent. -/
theorem within_sqrt {m : ℕ} {e n : ℤ} (hm : 0 < m) (htotal : totalExponent m e ≤ 2 * n)
    (hlow : -1021 ≤ n) :
    Within (n + 1) (UnpackedFloat.sqrt .binary64 (.finite .positive m e hm)) := by
  obtain ⟨target, htarget⟩ : ∃ target : ℤ, target =
      min (e.ediv 2) (max ((totalExponent m e + 1).ediv 2 - 53) (-1074)) := ⟨_, rfl⟩
  obtain ⟨shift, hshift⟩ : ∃ shift : ℕ, shift = (e - 2 * target).toNat := ⟨_, rfl⟩
  obtain ⟨a, hresult⟩ : ∃ a, UnpackedFloat.sqrt .binary64 (.finite .positive m e hm) =
      roundWithAccuracy .binary64 .positive (m <<< shift).sqrt target a := by
    rw [hshift, htarget]
    exact ⟨_, rfl⟩
  have hroot := two_mul_log2_sqrt_le (m <<< shift)
  rw [log2_shiftLeft shift hm] at hroot
  rw [hresult]
  have hhalf : e.ediv 2 = e / 2 := rfl
  have hhalf' : (totalExponent m e + 1).ediv 2 = (totalExponent m e + 1) / 2 := rfl
  rw [hhalf, hhalf'] at htarget
  unfold totalExponent at htotal htarget
  apply within_roundWithAccuracy
  · omega
  · unfold totalExponent
    omega
  · omega

/-! ## Lengths -/

theorem exists_ofFloat? (h : x.isFinite = true) : ∃ b, ofFloat? x = some b := by
  unfold ofFloat?
  rcases isFinite_cases h with ⟨s, hx⟩ | ⟨s, m, e, hm, hx⟩
  · rw [hx]
    exact ⟨_, rfl⟩
  · rw [hx]
    exact ⟨_, rfl⟩

theorem nonneg_sqrt (b : Binary) : 0 ≤ b.sqrt := by
  unfold Binary.sqrt
  split
  case isTrue hpos => exact zero_le_of_unsigned (unsigned_roundWithAccuracy _ _ _).unpack_pack
  case isFalse => decide

theorem isNaN_or_nonneg_euclideanLength (x y : Float) :
    (euclideanLength x y).isNaN = true ∨ 0 ≤ euclideanLength x y := by
  unfold euclideanLength
  split
  case h_1 a b _ _ => exact .inr (nonneg_sqrt _)
  case h_2 =>
    split
    case isTrue => exact .inr (by decide)
    case isFalse => exact .inl (by decide)

theorem isInf_eq_false (h : x.isNaN = true ∨ x.isFinite = true) : x.isInf = false := by
  have h : x.toModel.unpack.isNaN = true ∨ x.toModel.unpack.isFinite = true := h
  show x.toModel.unpack.isInf = false
  cases hx : x.toModel.unpack with
  | infinity =>
      rw [hx] at h
      rcases h with h | h <;> cases h
  | zero | finite | notANumber => rfl

theorem isNaN_euclideanLength (hx : x.isNaN = true ∨ x.isFinite = true)
    (hy : y.isNaN = true ∨ y.isFinite = true) (h : x.isFinite = false ∨ y.isFinite = false) :
    (euclideanLength x y).isNaN = true := by
  unfold euclideanLength
  split
  case h_1 a b ha hb =>
    rcases h with h | h
    · rw [ofFloat?_of_not_isFinite h] at ha
      cases ha
    · rw [ofFloat?_of_not_isFinite h] at hb
      cases hb
  case h_2 =>
    rw [isInf_eq_false hx, isInf_eq_false hy]
    decide

theorem totalExponent_le_of_le {m : ℕ} {e n : ℤ} (hm : 0 < m) (h : (m * 2 ^ e : ℚ) ≤ 2 ^ n) :
    totalExponent m e ≤ n + 1 := by
  have hpower : (2 : ℚ) ^ m.log2 ≤ m := by exact_mod_cast Nat.log2_self_le hm.ne'
  have hle : (2 : ℚ) ^ (e + m.log2) ≤ 2 ^ n := by
    rw [← two_pow_mul_zpow]
    exact (mul_le_mul_of_nonneg_right hpower (by positivity)).trans h
  have hexponent := (zpow_le_zpow_iff_right₀ one_lt_two).mp hle
  unfold totalExponent
  omega

theorem below_euclideanLength (hx : x.isFinite = true ∧ |value x| ≤ 1)
    (hy : y.isFinite = true ∧ |value y| ≤ 1) : Below 2 (euclideanLength x y) := by
  obtain ⟨a, ha⟩ := exists_ofFloat? hx.1
  obtain ⟨b, hb⟩ := exists_ofFloat? hy.1
  have hsum := addMagnitudes_square ha hb
  have hsmall : value x * value x + value y * value y ≤ 2 ^ (1 : ℤ) := by
    have hxx := mul_le_one₀ hx.2 (abs_nonneg _) hx.2
    have hyy := mul_le_one₀ hy.2 (abs_nonneg _) hy.2
    rw [abs_mul_abs_self] at hxx hyy
    norm_num
    linarith
  have hlength : euclideanLength x y = (a.square.addMagnitudes b.square).sqrt := by
    unfold euclideanLength
    rw [ha, hb]
  rw [hlength]
  unfold Binary.sqrt
  split
  case isTrue hpos =>
    have htotal := totalExponent_le_of_le hpos (hsum.trans_le hsmall)
    exact within_unpack_pack (within_sqrt (n := 1) hpos htotal (by decide)) (by decide) (by decide)
  case isFalse =>
    obtain ⟨s, hzero⟩ := unpack_of_value_eq_zero (by decide) value_zero
    unfold Below
    rw [hzero]
    exact .zero

/-- Sides that are at most one, if they are numbers, have a length of less than
four, if it is one. -/
theorem euclideanLength_of_sides
    (hx : x.isNaN = true ∨ x.isFinite = true ∧ |value x| ≤ 1)
    (hy : y.isNaN = true ∨ y.isFinite = true ∧ |value y| ≤ 1) :
    (euclideanLength x y).isNaN = true ∨ Below 2 (euclideanLength x y) := by
  rcases hx with hnan | hx
  · exact .inl (isNaN_euclideanLength (.inl hnan) (hy.imp_right And.left)
      (.inl (isFinite_of_isNaN hnan)))
  · rcases hy with hnan | hy
    · exact .inl (isNaN_euclideanLength (.inr hx.1) (.inl hnan) (.inr (isFinite_of_isNaN hnan)))
    · exact .inr (below_euclideanLength hx hy)

end GrowthCurve.Binary
