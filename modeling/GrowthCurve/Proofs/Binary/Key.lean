import Mathlib
import GrowthCurve.Proofs.Binary.Value

/-!
# The sorting key of doubles

Below the sign bit, exponent and mantissa together are a number that grows with
the magnitude. The key that doubles are sorted by counts it upwards for positive
and downwards for negative numbers, so that sorted doubles are in order. Only
the two zeros are equal and have different keys.
-/

namespace GrowthCurve.Binary

open Float.Model UnpackedFloat

/-! ## Bits -/

/-- Exponent and mantissa as one number. -/
def magnitudeBits (exponent : BitVec 11) (mantissa : BitVec 52) : ℕ :=
  exponent.toNat * 2 ^ 52 + mantissa.toNat

theorem magnitudeBits_lt (exponent : BitVec 11) (mantissa : BitVec 52) :
    magnitudeBits exponent mantissa < 2 ^ 63 := by
  have hexponent := exponent.isLt
  have hmantissa := mantissa.isLt
  unfold magnitudeBits
  omega

theorem toNat_packComponents (s : Sign) (exponent : BitVec 11) (mantissa : BitVec 52) :
    (packComponents .binary64 s exponent mantissa).toNat =
      s.toBitVec.toNat * 2 ^ 63 + magnitudeBits exponent mantissa := by
  have hexponent := exponent.isLt
  have hmantissa := mantissa.isLt
  show (s.toBitVec ++ exponent ++ mantissa).toNat = _
  rw [BitVec.toNat_append, BitVec.toNat_append, ← Nat.shiftLeft_add_eq_or_of_lt hmantissa,
    ← Nat.shiftLeft_add_eq_or_of_lt hexponent, Nat.shiftLeft_eq, Nat.shiftLeft_eq]
  unfold magnitudeBits
  ring

/-- The bits of a double are a sign, an exponent and a mantissa. -/
theorem exists_components (x : Float) :
    ∃ s exponent mantissa, x.toModel.toBits.toBitVec =
      packComponents .binary64 s exponent mantissa :=
  ⟨_, _, _, (@packComponents_unpackSign_unpackExponent_unpackMantissa .binary64
    x.toModel.toBits.toBitVec).symm⟩

theorem and_signBit {n : ℕ} (h : n < 2 ^ 64) : n &&& 2 ^ 63 = 0 ↔ n < 2 ^ 63 := by
  rw [Nat.and_two_pow]
  rcases lt_or_ge n (2 ^ 63) with hsmall | hlarge
  · rw [Nat.testBit_lt_two_pow hsmall]
    exact iff_of_true (zero_mul _) hsmall
  · rw [Nat.testBit_of_two_pow_le_and_two_pow_add_one_gt hlarge h]
    exact iff_of_false (by decide) hlarge.not_gt

theorem toNat_orderKey (x : Float) :
    (orderKey x).toNat =
      if x.toBits.toNat < 2 ^ 63 then 2 ^ 63 + x.toBits.toNat
      else 2 ^ 64 - 1 - x.toBits.toNat := by
  have hmask : x.toBits &&& 0x8000000000000000 = 0 ↔ x.toBits.toNat < 2 ^ 63 := by
    rw [← and_signBit x.toBits.toNat_lt, ← UInt64.toNat_inj, UInt64.toNat_and]
    rfl
  unfold orderKey
  dsimp only
  simp only [hmask]
  split
  case isTrue hsmall =>
    rw [UInt64.toNat_or, Nat.or_comm]
    exact (Nat.two_pow_add_eq_or_of_lt hsmall 1).symm
  case isFalse =>
    rw [UInt64.toNat_not]
    rfl

section Components

variable {x : Float} {exponent : BitVec 11} {mantissa : BitVec 52}

theorem orderKey_of_positive
    (hx : x.toModel.toBits.toBitVec = packComponents .binary64 .positive exponent mantissa) :
    (orderKey x).toNat = 2 ^ 63 + magnitudeBits exponent mantissa := by
  have hlt := magnitudeBits_lt exponent mantissa
  have hbits : x.toBits.toNat = 0 * 2 ^ 63 + magnitudeBits exponent mantissa :=
    (congrArg BitVec.toNat hx).trans (toNat_packComponents .positive exponent mantissa)
  rw [toNat_orderKey, if_pos (by omega)]
  omega

theorem orderKey_of_negative
    (hx : x.toModel.toBits.toBitVec = packComponents .binary64 .negative exponent mantissa) :
    (orderKey x).toNat = 2 ^ 63 - 1 - magnitudeBits exponent mantissa := by
  have hlt := magnitudeBits_lt exponent mantissa
  have hbits : x.toBits.toNat = 1 * 2 ^ 63 + magnitudeBits exponent mantissa :=
    (congrArg BitVec.toNat hx).trans (toNat_packComponents .negative exponent mantissa)
  rw [toNat_orderKey, if_neg (by omega)]
  omega

end Components

/-! ## Ranks -/

/-- The rank of a positive number with a given exponent and mantissa. -/
def level (exponent mantissa : ℕ) : ℤ ×ₗ ℤ ×ₗ ℤ :=
  if exponent = 2047 then toLex (2, toLex (0, 0))
  else if exponent = 0 then
    if mantissa = 0 then toLex (0, toLex (0, 0)) else toLex (1, toLex (-1074, mantissa))
  else toLex (1, toLex ((exponent : ℤ) - 1075, ((2 ^ 52 + mantissa : ℕ) : ℤ)))

theorem rank_neg (u : UnpackedFloat) : rank u.neg = -rank u := by
  cases u with
  | notANumber => rfl
  | infinity s | zero s => cases s <;> rfl
  | finite s m e h =>
      cases s with
      | positive => rfl
      | negative => simp [rank, UnpackedFloat.neg, ← toLex_neg]

theorem unpack_negative (exponent : BitVec 11) (mantissa : BitVec 52) :
    UnpackedFloat.unpack .binary64 (packComponents .binary64 .negative exponent mantissa) =
      (UnpackedFloat.unpack .binary64
        (packComponents .binary64 .positive exponent mantissa)).neg := by
  unfold UnpackedFloat.unpack
  simp only [unpackMantissa_packComponents, unpackExponent_packComponents,
    unpackSign_packComponents, Sign.ofBitVec_toBitVec]
  split_ifs <;> rfl

theorem rank_unpack_positive {exponent : BitVec 11} {mantissa : BitVec 52}
    (hnan : (UnpackedFloat.unpack .binary64
      (packComponents .binary64 .positive exponent mantissa)).isNaN = false) :
    rank (UnpackedFloat.unpack .binary64
        (packComponents .binary64 .positive exponent mantissa)) =
      level exponent.toNat mantissa.toNat := by
  by_cases hinfinite : exponent = -1#11
  · have hmantissa : mantissa = 0#52 := by
      by_contra hother
      unfold UnpackedFloat.unpack at hnan
      simp only [unpackMantissa_packComponents, unpackExponent_packComponents] at hnan
      rw [if_pos hinfinite, if_neg hother] at hnan
      cases hnan
    subst hinfinite hmantissa
    have hunpack := unpack_infinite .positive
    unfold packedInfinity at hunpack
    exact congrArg rank hunpack
  · have hne : exponent.toNat ≠ 2047 := fun h => hinfinite (BitVec.eq_of_toNat_eq h)
    by_cases hzero : exponent = 0#11
    · subst hzero
      by_cases hmantissa : mantissa = 0#52
      · subst hmantissa
        exact congrArg rank (@unpack_packedZero .binary64 .positive)
      · have hpos : mantissa.toNat ≠ 0 := fun h => hmantissa (BitVec.eq_of_toNat_eq h)
        have hunpack := unpack_subnormal_exact .positive (Nat.pos_of_ne_zero hpos) mantissa.isLt
        rw [BitVec.ofNat_toNat, BitVec.setWidth_eq] at hunpack
        rw [hunpack, level, if_neg hne, if_pos (show (0#11).toNat = 0 from rfl), if_neg hpos]
        rfl
    · have hne' : exponent.toNat ≠ 0 := fun h => hzero (BitVec.eq_of_toNat_eq h)
      rw [unpack_normal .positive mantissa hinfinite hzero, level, if_neg hne, if_neg hne']
      rfl

theorem rank_unpack_negative {exponent : BitVec 11} {mantissa : BitVec 52}
    (hnan : (UnpackedFloat.unpack .binary64
      (packComponents .binary64 .negative exponent mantissa)).isNaN = false) :
    rank (UnpackedFloat.unpack .binary64
        (packComponents .binary64 .negative exponent mantissa)) =
      -level exponent.toNat mantissa.toNat := by
  rw [unpack_negative] at hnan ⊢
  have hnan : (UnpackedFloat.unpack .binary64
      (packComponents .binary64 .positive exponent mantissa)).isNaN = false := by
    generalize UnpackedFloat.unpack _ _ = u at hnan ⊢
    cases u with
    | notANumber => cases hnan
    | infinity | zero | finite => rfl
  rw [rank_neg, rank_unpack_positive hnan]

/-- Numbers with greater bits rank higher. -/
theorem level_mono {e e' : BitVec 11} {m m' : BitVec 52}
    (h : magnitudeBits e m ≤ magnitudeBits e' m') :
    level e.toNat m.toNat ≤ level e'.toNat m'.toNat := by
  have hm := m.isLt
  have hm' := m'.isLt
  have he' := e'.isLt
  unfold magnitudeBits at h
  unfold level
  split_ifs <;> simp only [Prod.Lex.toLex_le_toLex, true_and] <;> omega

theorem level_nonneg (e m : ℕ) : 0 ≤ level e m := by
  show toLex ((0 : ℤ), toLex ((0 : ℤ), (0 : ℤ))) ≤ level e m
  unfold level
  split_ifs <;> simp [Prod.Lex.toLex_le_toLex]

/-! ## Order -/

variable {x y : Float}

/-- A number that is sorted before another one is not above it. -/
theorem le_of_orderKey_le (hx : x.isNaN = false) (hy : y.isNaN = false)
    (h : orderKey x ≤ orderKey y) : x ≤ y := by
  refine le_iff.mpr ⟨hx, hy, ?_⟩
  have h : (orderKey x).toNat ≤ (orderKey y).toNat := h
  have hx : (UnpackedFloat.unpack .binary64 x.toModel.toBits.toBitVec).isNaN = false := hx
  have hy : (UnpackedFloat.unpack .binary64 y.toModel.toBits.toBitVec).isNaN = false := hy
  show rank (UnpackedFloat.unpack .binary64 x.toModel.toBits.toBitVec) ≤
    rank (UnpackedFloat.unpack .binary64 y.toModel.toBits.toBitVec)
  obtain ⟨s, e, m, hbits⟩ := exists_components x
  obtain ⟨s', e', m', hbits'⟩ := exists_components y
  have hlt := magnitudeBits_lt e m
  have hlt' := magnitudeBits_lt e' m'
  rw [hbits] at hx ⊢
  rw [hbits'] at hy ⊢
  cases s with
  | positive =>
      rw [orderKey_of_positive hbits] at h
      rw [rank_unpack_positive hx]
      cases s' with
      | positive =>
          rw [orderKey_of_positive hbits'] at h
          rw [rank_unpack_positive hy]
          exact level_mono (by omega)
      | negative =>
          rw [orderKey_of_negative hbits'] at h
          omega
  | negative =>
      rw [orderKey_of_negative hbits] at h
      rw [rank_unpack_negative hx]
      cases s' with
      | positive =>
          rw [rank_unpack_positive hy]
          exact (neg_nonpos.mpr (level_nonneg _ _)).trans (level_nonneg _ _)
      | negative =>
          rw [orderKey_of_negative hbits'] at h
          rw [rank_unpack_negative hy, neg_le_neg_iff]
          exact level_mono (by omega)

end GrowthCurve.Binary
