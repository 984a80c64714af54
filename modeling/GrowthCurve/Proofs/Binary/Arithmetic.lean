import Mathlib
import GrowthCurve.Proofs.Binary.Rounding

/-!
# Arithmetic on finite doubles

Every operation gives the double nearest to the exact result, and an infinity
if the result is too large. The greater result is never given the lesser double.
-/

namespace GrowthCurve.Binary

open Float.Model UnpackedFloat

/-! ## Operations on unpacked numbers -/

/-- Mantissas are brought to a common exponent before they are added. -/
theorem apply_decreaseExponent (s : Sign) (m : ℕ) {e f : ℤ} (h : f ≤ e) :
    (s.apply (decreaseExponent m e f).1 : ℚ) * 2 ^ f = signed s (m * 2 ^ e) := by
  have hscaled := shiftLeft_scaled m (e - f).toNat e
  have hexponent : e - (e - f).toNat = f := by omega
  rw [hexponent] at hscaled
  rw [signed_apply]
  exact congrArg (signed s) hscaled

section

variable {u v : UnpackedFloat}

theorem rounded_add (hu : Canonical u) (hv : Canonical v) :
    Canonical (UnpackedFloat.add .binary64 u v) ∧
      Rounded (valueOf u + valueOf v) (valueOf (UnpackedFloat.add .binary64 u v)) := by
  cases hu with
  | @zero s =>
      show _ ∧ Rounded (0 + valueOf v) _
      rw [zero_add]
      cases hv with
      | @zero s' => cases s <;> cases s' <;> exact ⟨.zero, rounded_zero⟩
      | @finite s' m' e' hm' hbits hlow hfull =>
          have hcanonical : Canonical (.finite s' m' e' hm') := .finite hbits hlow hfull
          exact ⟨hcanonical, hcanonical.rounded⟩
  | @finite s m e hm hbits hlow hfull =>
      cases hv with
      | zero =>
          show _ ∧ Rounded (valueOf (.finite s m e hm) + 0) _
          rw [add_zero]
          have hcanonical : Canonical (.finite s m e hm) := .finite hbits hlow hfull
          exact ⟨hcanonical, hcanonical.rounded⟩
      | @finite s' m' e' hm' =>
          have hexact : ((s.apply (decreaseExponent m e (min e e')).1 +
              s'.apply (decreaseExponent m' e' (min e e')).1 : ℤ) : ℚ) * 2 ^ min e e' =
              signed s (m * 2 ^ e) + signed s' (m' * 2 ^ e') := by
            push_cast
            rw [add_mul, apply_decreaseExponent s m (min_le_left e e'),
              apply_decreaseExponent s' m' (min_le_right e e')]
          show _ ∧ Rounded (signed s (m * 2 ^ e) + signed s' (m' * 2 ^ e')) _
          rw [← hexact]
          exact rounded_normalize _ _ _

/-- Subtracting is adding the opposite. -/
theorem sub_eq_add_neg_of_canonical (hu : Canonical u) (hv : Canonical v) :
    UnpackedFloat.sub .binary64 u v = UnpackedFloat.add .binary64 u v.neg := by
  cases hu with
  | zero =>
      cases hv with
      | zero | finite => rfl
  | finite =>
      cases hv with
      | zero => rfl
      | @finite s' =>
          cases s' with
          | negative => exact congrArg (UnpackedFloat.normalize _ · _ _) (sub_neg_eq_add _ _)
          | positive => exact congrArg (UnpackedFloat.normalize _ · _ _) (sub_eq_add_neg _ _)

theorem rounded_sub (hu : Canonical u) (hv : Canonical v) :
    Canonical (UnpackedFloat.sub .binary64 u v) ∧
      Rounded (valueOf u - valueOf v) (valueOf (UnpackedFloat.sub .binary64 u v)) := by
  rw [sub_eq_add_neg_of_canonical hu hv, sub_eq_add_neg, ← valueOf_neg]
  exact rounded_add hu hv.neg

/-- A mantissa with all its bits leaves room for the rounding. -/
theorem roomy_of_bits {m : ℕ} (h : 2 ^ 52 ≤ m) (e : ℤ) :
    e ≤ max (totalExponent m e - 53) (-1074) := by
  have hpos : m ≠ 0 := by omega
  have hlog := (Nat.le_log2 hpos).mpr h
  unfold totalExponent
  omega

theorem rounded_mul (hu : Canonical u) (hv : Canonical v) :
    Canonical (UnpackedFloat.mul .binary64 u v) ∧
      Rounded (valueOf u * valueOf v) (valueOf (UnpackedFloat.mul .binary64 u v)) := by
  cases hu with
  | zero =>
      show _ ∧ Rounded (0 * valueOf v) _
      rw [zero_mul]
      cases hv with
      | zero | finite => exact ⟨.zero, rounded_zero⟩
  | @finite s m e hm hbits hlow hfull =>
      cases hv with
      | zero =>
          show _ ∧ Rounded (_ * 0) _
          rw [mul_zero]
          exact ⟨.zero, rounded_zero⟩
      | @finite s' m' e' hm' hbits' hlow' hfull' =>
          have hexact : Describes (m * m') (m * m' : ℕ) .exact := rfl
          have hroom : e + e' ≤ max (totalExponent (m * m') (e + e') - 53) (-1074) := by
            by_cases hmany : 2 ^ 52 ≤ m * m'
            · exact roomy_of_bits hmany (e + e')
            · have hm₁ : m ≤ m * m' := Nat.le_mul_of_pos_right m hm'
              have hm₂ : m' ≤ m * m' := Nat.le_mul_of_pos_left m' hm
              omega
          have hvalue : valueOf (.finite s m e hm) * valueOf (.finite s' m' e' hm') =
              signed (s * s') ((m * m' : ℕ) * 2 ^ (e + e')) := by
            unfold valueOf
            rw [signed_mul, zpow_add₀ two_ne_zero]
            congr 1
            push_cast
            ring
          rw [hvalue]
          exact rounded_roundWithAccuracy (s * s') hexact hroom

theorem two_pow_le_div {m n k : ℕ} (hm : 0 < m) (hn : 0 < n) (h : n.log2 + k + 1 ≤ m.log2) :
    2 ^ k ≤ m / n := by
  rw [Nat.le_div_iff_mul_le hn]
  calc 2 ^ k * n ≤ 2 ^ k * 2 ^ (n.log2 + 1) := Nat.mul_le_mul_left _ Nat.lt_log2_self.le
    _ = 2 ^ (n.log2 + k + 1) := by rw [← pow_add]; congr 1; omega
    _ ≤ 2 ^ m.log2 := Nat.pow_le_pow_right (by decide) h
    _ ≤ m := Nat.log2_self_le hm.ne'

theorem rounded_div (hu : Canonical u) (hv : Canonical v) (hne : valueOf v ≠ 0) :
    Canonical (UnpackedFloat.div .binary64 u v) ∧
      Rounded (valueOf u / valueOf v) (valueOf (UnpackedFloat.div .binary64 u v)) := by
  cases hv with
  | zero => exact absurd rfl hne
  | @finite s' m' e' hm' =>
      cases hu with
      | zero =>
          show _ ∧ Rounded (0 / _) _
          rw [zero_div]
          exact ⟨.zero, rounded_zero⟩
      | @finite s m e hm =>
          obtain ⟨target, htarget⟩ : ∃ target : ℤ, target =
              min (e - e') (max (totalExponent m e - totalExponent m' e' - 53) (-1074)) := ⟨_, rfl⟩
          obtain ⟨shift, hshift⟩ : ∃ shift : ℕ, shift = (e - e' - target).toNat := ⟨_, rfl⟩
          have hresult : UnpackedFloat.div .binary64 (.finite s m e hm) (.finite s' m' e' hm') =
              roundWithAccuracy .binary64 (s / s') (m <<< shift / m') target
                (accuracyOfFraction (m <<< shift % m') m') := by
            rw [hshift, htarget]
            rfl
          have hroom : target ≤ max (totalExponent (m <<< shift / m') target - 53) (-1074) := by
            by_cases hleast : target ≤ -1074
            · omega
            · apply roomy_of_bits
              apply two_pow_le_div (Nat.shiftLeft_pos_iff.mpr hm) hm'
              rw [log2_shiftLeft shift hm]
              unfold totalExponent at htarget
              omega
          have hvalue : valueOf (.finite s m e hm) / valueOf (.finite s' m' e' hm') =
              signed (s / s') ((m <<< shift : ℕ) / m' * 2 ^ target) := by
            have hscaled := shiftLeft_scaled m shift (e - e')
            have hexponent : e - e' - shift = target := by omega
            rw [hexponent] at hscaled
            unfold valueOf
            rw [signed_div]
            congr 1
            rw [div_mul_eq_mul_div, hscaled, zpow_sub₀ two_ne_zero]
            field_simp
          rw [hvalue, hresult]
          exact rounded_roundWithAccuracy (s / s') (describes_accuracyOfFraction _ hm') hroom

end

/-! ## Doubles -/

/-- `x` is the double nearest to `v`, infinite if `v` is too large. -/
def RoundsTo (v : ℚ) (x : Float) : Prop :=
  ∃ u, Canonical u ∧ Rounded v (valueOf u) ∧ x.toModel.unpack = saturate u

variable {v w : ℚ} {x y : Float}

theorem roundsTo_pack {u : UnpackedFloat} (h : Canonical u ∧ Rounded v (valueOf u)) :
    RoundsTo v (.ofModel (Float.Model.pack u)) :=
  ⟨u, h.1, h.2, unpack_pack_of_canonical h.1⟩

section

variable (hx : x.isFinite = true) (hy : y.isFinite = true)
include hx hy

theorem roundsTo_add : RoundsTo (value x + value y) (x + y) :=
  roundsTo_pack (rounded_add (canonical_unpack hx) (canonical_unpack hy))

theorem roundsTo_sub : RoundsTo (value x - value y) (x - y) :=
  roundsTo_pack (rounded_sub (canonical_unpack hx) (canonical_unpack hy))

theorem roundsTo_mul : RoundsTo (value x * value y) (x * y) :=
  roundsTo_pack (rounded_mul (canonical_unpack hx) (canonical_unpack hy))

theorem roundsTo_div (hne : value y ≠ 0) : RoundsTo (value x / value y) (x / y) :=
  roundsTo_pack (rounded_div (canonical_unpack hx) (canonical_unpack hy) hne)

end

theorem pack_unpack_model (m : Float.Model) : Float.Model.pack m.unpack = m := by
  obtain ⟨bits, hvalid⟩ := m
  have hbits : UnpackedFloat.pack .binary64 (UnpackedFloat.unpack .binary64 bits.toBitVec) =
      bits.toBitVec := pack_unpack_of_valid hvalid
  unfold Float.Model.pack Float.Model.unpack
  congr 1
  exact UInt64.toBitVec_inj.mp hbits

/-- A finite double is nearest to its own value. -/
theorem rounded_value (h : x.isFinite = true) : Rounded (value x) (value x) :=
  (canonical_unpack h).rounded

theorem roundsTo_value (h : x.isFinite = true) : RoundsTo (value x) x := by
  have hcanonical := canonical_unpack h
  refine ⟨x.toModel.unpack, hcanonical, hcanonical.rounded, ?_⟩
  rw [← unpack_pack_of_canonical hcanonical, pack_unpack_model]

theorem isNaN_saturate {u : UnpackedFloat} (h : Canonical u) : (saturate u).isNaN = false := by
  cases h with
  | zero => rfl
  | @finite s m e =>
      rcases le_or_gt e 971 with hsmall | hlarge
      · rw [saturate_of_le hsmall]
        rfl
      · rw [saturate_of_lt hlarge]
        rfl

theorem RoundsTo.isNaN_eq_false (h : RoundsTo v x) : x.isNaN = false := by
  obtain ⟨u, hu, -, hx⟩ := h
  show x.toModel.unpack.isNaN = false
  rw [hx]
  exact isNaN_saturate hu

/-- The greater number is rounded to the greater double. -/
theorem RoundsTo.le (hx : RoundsTo v x) (hy : RoundsTo w y) (h : v ≤ w) : x ≤ y := by
  refine le_iff.mpr ⟨hx.isNaN_eq_false, hy.isNaN_eq_false, ?_⟩
  obtain ⟨u, hu, hvalue, hx⟩ := hx
  obtain ⟨u', hu', hvalue', hy⟩ := hy
  have hrank : rank u ≤ rank u' := by
    rw [← not_lt, rank_lt_iff hu' hu, not_lt]
    exact hvalue.mono hvalue' h
  unfold place
  rw [hx, hy]
  exact rank_saturate_le hu hu' hrank

theorem lt_iff_value (hx : x.isFinite = true) (hy : y.isFinite = true) :
    x < y ↔ value x < value y := by
  have hnan := (roundsTo_value hx).isNaN_eq_false
  have hnan' := (roundsTo_value hy).isNaN_eq_false
  have horder := rank_lt_iff (canonical_unpack hx) (canonical_unpack hy)
  rw [lt_iff]
  exact ⟨fun h => horder.mp h.2.2, fun h => ⟨hnan, hnan', horder.mpr h⟩⟩

theorem le_iff_value (hx : x.isFinite = true) (hy : y.isFinite = true) :
    x ≤ y ↔ value x ≤ value y := by
  refine ⟨fun h => ?_, (roundsTo_value hx).le (roundsTo_value hy)⟩
  rw [← not_lt, ← lt_iff_value hy hx]
  intro hlt
  exact (le_iff.mp h).2.2.not_gt (lt_iff.mp hlt).2.2

/-! ## Large results -/

theorem RoundsTo.rounded (h : RoundsTo v x) (hx : x.isFinite = true) : Rounded v (value x) := by
  obtain ⟨u, hu, hvalue, hunpack⟩ := h
  have hx : x.toModel.unpack.isFinite = true := hx
  unfold value
  rw [hunpack] at hx ⊢
  cases hu with
  | zero => exact hvalue
  | @finite s m e =>
      rcases le_or_gt e 971 with hsmall | hlarge
      · rw [saturate_of_le hsmall]
        exact hvalue
      · rw [saturate_of_lt hlarge] at hx
        cases hx

theorem abs_value_lt (hx : x.isFinite = true) : |value x| < 2 ^ (1024 : ℤ) := by
  obtain ⟨u, hu, hvalue, hunpack⟩ := roundsTo_value hx
  have hx : x.toModel.unpack.isFinite = true := hx
  unfold value
  rw [hunpack] at hx ⊢
  cases hu with
  | zero => simp [saturate, valueOf]
  | @finite s m e hm hbits =>
      rcases le_or_gt e 971 with hsmall | hlarge
      · rw [saturate_of_le hsmall, valueOf, abs_signed, abs_of_pos (magnitude_pos e hm)]
        exact (magnitude_lt_zpow e hbits).trans_le (zpow_le_zpow_right₀ one_le_two (by omega))
      · rw [saturate_of_lt hlarge] at hx
        cases hx

/-- A result gets past no double that is not too large. -/
theorem RoundsTo.bounded {b c : ℚ} (h : RoundsTo v x) (hb : Rounded b c) (hv : |v| ≤ b)
    (hlarge : c < 2 ^ (1024 : ℤ)) : x.isFinite = true ∧ |value x| ≤ c := by
  suffices hfinite : x.isFinite = true from ⟨hfinite, (h.rounded hfinite).abs_le_of_le hb hv⟩
  obtain ⟨u, hu, hvalue, hunpack⟩ := h
  have hbound := hvalue.abs_le_of_le hb hv
  show x.toModel.unpack.isFinite = true
  rw [hunpack]
  cases hu with
  | zero => rfl
  | @finite s m e hm hbits hlow hfull =>
      rcases le_or_gt e 971 with hsmall | hexceeds
      · rw [saturate_of_le hsmall]
        rfl
      · have hmagnitude := zpow_le_magnitude e (hfull.resolve_right (by omega))
        have hpower : (2 : ℚ) ^ (1024 : ℤ) ≤ 2 ^ (e + 52) :=
          zpow_le_zpow_right₀ one_le_two (by omega)
        rw [valueOf, abs_signed, abs_of_pos (magnitude_pos e hm)] at hbound
        exact absurd (hpower.trans (hmagnitude.trans hbound)) hlarge.not_ge

/-- A result up to `2 ^ 1023` is not too large. -/
theorem RoundsTo.isFinite (h : RoundsTo v x) (hv : |v| ≤ 2 ^ (1023 : ℤ)) : x.isFinite = true :=
  (h.bounded (rounded_two_zpow (by decide)) hv
    (zpow_lt_zpow_right₀ one_lt_two (by decide))).1

end GrowthCurve.Binary
