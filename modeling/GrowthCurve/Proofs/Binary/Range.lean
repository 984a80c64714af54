import Mathlib
import GrowthCurve.Binary
import GrowthCurve.Proofs.Binary.Accuracy

/-!
# How large doubles become

Bounds on the result of an operation, by powers of two. Rounding may carry a
result to the next power of two and no further. As long as the bound stays
below the greatest exponent, nothing becomes infinite.
-/

namespace GrowthCurve.Binary

open Float.Model UnpackedFloat

/-- Zero, or a number whose 53 bits end below `2 ^ n`. -/
inductive Within (n : Int) : UnpackedFloat → Prop where
  | zero {s : Sign} : Within n (.zero s)
  | finite {s : Sign} {m : ℕ} {e : Int} {h : 0 < m} (bound : e + 53 ≤ n) :
      Within n (.finite s m e h)

theorem Within.mono {n k : Int} {u : UnpackedFloat} (h : Within n u) (hk : n ≤ k) :
    Within k u := by
  cases h with
  | zero => exact .zero
  | finite hbound => exact .finite (hbound.trans hk)

theorem Within.neg {n : Int} {u : UnpackedFloat} (h : Within n u) : Within n u.neg := by
  cases h with
  | zero => exact .zero
  | finite hbound => exact .finite hbound

/-! ## Rounding -/

theorem targetExponent_eq (t : Int) :
    Format.binary64.targetExponent t = max (t - 53) (-1074) := rfl

theorem mantissa_shiftRight (em : ExtendedMantissa) (k : ℕ) :
    (em >>> k).mantissa = em.mantissa / 2 ^ k := by
  induction k with
  | zero => simp [HShiftRight.hShiftRight, Nat.repeat]
  | succ k ih =>
      show (em >>> k).mantissa / 2 = _
      rw [ih, Nat.div_div_eq_div_mul, pow_succ]

theorem mantissa_ofMantissaAndAccuracy (m : ℕ) (a : Accuracy) :
    (ExtendedMantissa.ofMantissaAndAccuracy m a).mantissa = m := by
  cases a with
  | exact => rfl
  | inexact order => cases order <;> rfl

theorem roundedMantissa_bounds (em : ExtendedMantissa) :
    em.mantissa ≤ em.roundedMantissa ∧ em.roundedMantissa ≤ em.mantissa + 1 := by
  obtain ⟨m, roundBit, stickyBit⟩ := em
  unfold ExtendedMantissa.roundedMantissa
  cases roundBit with
  | false => cases stickyBit <;> exact ⟨le_rfl, Nat.le_succ m⟩
  | true =>
      cases stickyBit with
      | true => exact ⟨Nat.le_succ m, le_rfl⟩
      | false =>
          show m ≤ m + m % 2 ∧ m + m % 2 ≤ m + 1
          omega

/-- How rounding comes about: it drops `drop` low bits, goes to the nearest
integer, which is up by one at the most, and drops `carry` more bits if this was
one bit too many. -/
structure Rounds (m : ℕ) (e : Int) (a : Accuracy) (drop carry rounded : ℕ) : Prop where
  drop_eq : drop = (max (totalExponent m e - 53) (-1074) - e).toNat
  low : m / 2 ^ drop ≤ rounded
  high : rounded ≤ m / 2 ^ drop + 1
  nearest : ∀ x, Describes m x a → Nearest (x / 2 ^ drop) rounded
  carry_eq : carry = (max (totalExponent rounded (e + drop) - 53) (-1074) - (e + drop)).toNat

theorem roundWithAccuracy_cases (s : Sign) (m : ℕ) (e : Int) (a : Accuracy) :
    ∃ drop carry rounded, Rounds m e a drop carry rounded ∧
      (rounded / 2 ^ carry = 0 ∧ roundWithAccuracy .binary64 s m e a = .zero s ∨
        ∃ h : 0 < rounded / 2 ^ carry, roundWithAccuracy .binary64 s m e a =
          .finite s (rounded / 2 ^ carry) (e + drop + carry) h) := by
  obtain ⟨drop, hdrop⟩ : ∃ drop : ℕ,
      drop = (max (totalExponent m e - 53) (-1074) - e).toNat := ⟨_, rfl⟩
  obtain ⟨rounded, hrounded⟩ : ∃ rounded : ℕ,
      rounded = (ExtendedMantissa.ofMantissaAndAccuracy m a >>> drop).roundedMantissa := ⟨_, rfl⟩
  obtain ⟨carry, hcarry⟩ : ∃ carry : ℕ,
      carry = (max (totalExponent rounded (e + drop) - 53) (-1074) - (e + drop)).toNat := ⟨_, rfl⟩
  have hnearest : ∀ x, Describes m x a → Nearest (x / 2 ^ drop) rounded := by
    intro x hx
    rw [hrounded]
    exact ((represents_ofMantissaAndAccuracy hx).shiftRight drop).nearest
  have hbounds := roundedMantissa_bounds (ExtendedMantissa.ofMantissaAndAccuracy m a >>> drop)
  rw [← hrounded, mantissa_shiftRight, mantissa_ofMantissaAndAccuracy] at hbounds
  have hfirst : shiftToTargetExponent .binary64 m e a =
      (ExtendedMantissa.ofMantissaAndAccuracy m a >>> drop, e + drop) := by
    unfold shiftToTargetExponent shiftToExponent
    rw [targetExponent_eq, hdrop]
  have hsecond : shiftToTargetExponent .binary64 rounded (e + drop) .exact =
      (ExtendedMantissa.ofMantissaAndAccuracy rounded .exact >>> carry, e + drop + carry) := by
    unfold shiftToTargetExponent shiftToExponent
    rw [targetExponent_eq, hcarry]
  have hmantissa : (ExtendedMantissa.ofMantissaAndAccuracy rounded .exact >>> carry).mantissa =
      rounded / 2 ^ carry := mantissa_shiftRight _ _
  refine ⟨drop, carry, rounded, ⟨hdrop, hbounds.1, hbounds.2, hnearest, hcarry⟩, ?_⟩
  unfold roundWithAccuracy
  rw [hfirst]
  dsimp only
  rw [← hrounded, hsecond]
  dsimp only
  by_cases hzero : rounded / 2 ^ carry = 0
  · exact .inl ⟨hzero, dif_pos (hmantissa.trans hzero)⟩
  · refine .inr ⟨Nat.pos_of_ne_zero hzero, ?_⟩
    rw [dif_neg (by rwa [hmantissa])]
    simp only [hmantissa]

theorem log2_div_two_pow (m k : ℕ) : (m / 2 ^ k).log2 = m.log2 - k := by
  rw [Nat.log2_eq_log_two, Nat.log2_eq_log_two, Nat.log_div_base_pow]

theorem log2_mono {m n : ℕ} (h : m ≤ n) : m.log2 ≤ n.log2 := by
  rw [Nat.log2_eq_log_two, Nat.log2_eq_log_two]
  exact Nat.log_mono_right h

theorem log2_succ_le (m : ℕ) : (m + 1).log2 ≤ m.log2 + 1 := by
  have hlt : m < 2 ^ (m.log2 + 1) := Nat.lt_log2_self
  have hmono := log2_mono (show m + 1 ≤ 2 ^ (m.log2 + 1) from hlt)
  rwa [Nat.log2_two_pow] at hmono

/-- A rounded number lies at most one power of two above. -/
theorem within_roundWithAccuracy {n : Int} (s : Sign) {m : ℕ} {e : Int} (a : Accuracy)
    (hexponent : e + 53 ≤ n) (htotal : totalExponent m e < n) (hn : -1021 ≤ n) :
    Within n (roundWithAccuracy .binary64 s m e a) := by
  obtain ⟨drop, carry, rounded, h, hresult⟩ := roundWithAccuracy_cases s m e a
  rcases hresult with ⟨-, hresult⟩ | ⟨hpos, hresult⟩
  · rw [hresult]
    exact .zero
  · rw [hresult]
    have hlog : rounded.log2 ≤ m.log2 - drop + 1 := by
      have hhigh := log2_mono h.high
      have hsucc := log2_succ_le (m / 2 ^ drop)
      rw [log2_div_two_pow] at hsucc
      exact hhigh.trans hsucc
    have hdrop := h.drop_eq
    have hcarry := h.carry_eq
    unfold totalExponent at hdrop hcarry htotal
    exact .finite (by omega)

/-- A number with enough bits keeps 53 of them and stays where it is, or goes
to the next power of two. -/
theorem roundWithAccuracy_normal (s : Sign) {m : ℕ} {e : Int} (a : Accuracy)
    (hbits : 52 ≤ m.log2) (hnormal : -1021 ≤ totalExponent m e) :
    ∃ m' e' h, roundWithAccuracy .binary64 s m e a = .finite s m' e' h ∧ m'.log2 = 52 ∧
      totalExponent m e ≤ e' + 53 ∧ e' + 53 ≤ totalExponent m e + 1 := by
  obtain ⟨drop, carry, rounded, h, hresult⟩ := roundWithAccuracy_cases s m e a
  have hdrop := h.drop_eq
  have hcarry := h.carry_eq
  have hlow := log2_mono h.low
  have hhigh := (log2_mono h.high).trans (log2_succ_le _)
  rw [log2_div_two_pow] at hlow hhigh
  unfold totalExponent at hdrop hcarry hnormal ⊢
  have hlog : (rounded / 2 ^ carry).log2 = 52 := by
    rw [log2_div_two_pow]
    omega
  rcases hresult with ⟨hzero, -⟩ | ⟨hpos, hresult⟩
  · rw [hzero] at hlog
    exact absurd hlog (by decide)
  · refine ⟨_, _, hpos, hresult, hlog, ?_, ?_⟩
    · omega
    · omega

/-! ## Packing -/

theorem unpack_subnormal (s : Sign) (mantissa : BitVec 52) :
    Within (-1021) (UnpackedFloat.unpack .binary64 (packComponents .binary64 s 0#11 mantissa)) := by
  unfold UnpackedFloat.unpack
  simp only [unpackMantissa_packComponents, unpackExponent_packComponents]
  rw [if_neg (by decide), if_pos trivial]
  split
  case isTrue => exact .zero
  case isFalse => exact .finite le_rfl

/-- The leading one that the bits leave out comes back. -/
theorem unpack_normal (s : Sign) {exponent : BitVec 11} (mantissa : BitVec 52)
    (hinfinite : exponent ≠ -1#11) (hzero : exponent ≠ 0#11) :
    UnpackedFloat.unpack .binary64 (packComponents .binary64 s exponent mantissa) =
      .finite s (2 ^ 52 + mantissa.toNat) (exponent.toNat - 1075) (by omega) := by
  have hmantissa : (1#1 ++ mantissa).toNat = 2 ^ 52 + mantissa.toNat := by
    rw [BitVec.toNat_append, ← Nat.shiftLeft_add_eq_or_of_lt mantissa.isLt]
    rfl
  unfold UnpackedFloat.unpack
  simp only [unpackMantissa_packComponents, unpackExponent_packComponents,
    unpackSign_packComponents, Sign.ofBitVec_toBitVec, if_neg hinfinite, if_neg hzero, hmantissa]
  rfl

theorem unpack_infinite (s : Sign) :
    UnpackedFloat.unpack .binary64 (packedInfinity .binary64 s) = .infinity s := by
  unfold packedInfinity UnpackedFloat.unpack
  simp only [unpackMantissa_packComponents, unpackExponent_packComponents,
    unpackSign_packComponents, Sign.ofBitVec_toBitVec]
  exact (if_pos trivial).trans (if_pos rfl)

/-- The bits of a number: infinite, with a leading one that is left out, or
without one. -/
theorem pack_cases (s : Sign) {m : ℕ} (e : Int) (h : 0 < m) :
    971 < e ∧ UnpackedFloat.pack .binary64 (.finite s m e h) = packedInfinity .binary64 s ∨
      e ≤ 971 ∧ (m.log2 = 52 ∧ UnpackedFloat.pack .binary64 (.finite s m e h) =
          packComponents .binary64 s (BitVec.ofNat 11 (e + 1075).toNat) (BitVec.ofNat 52 m) ∨
        m.log2 ≠ 52 ∧ UnpackedFloat.pack .binary64 (.finite s m e h) =
          packComponents .binary64 s 0#11 (BitVec.ofNat 52 m)) := by
  have hbias : (e + (Format.binary64.exponentBias : Int) + (52 : ℕ)).toNat = (e + 1075).toNat := by
    have hconstant : (Format.binary64.exponentBias : Int) = 1023 := rfl
    rw [hconstant]
    congr 1
    omega
  unfold UnpackedFloat.pack
  dsimp only
  rw [hbias]
  by_cases hlarge : 971 < e
  · refine .inl ⟨hlarge, if_pos ?_⟩
    show 2048 ≤ _
    omega
  · refine .inr ⟨by omega, ?_⟩
    rw [if_neg (show ¬ 2048 ≤ (e + 1075).toNat + 1 by omega)]
    by_cases hlog : m.log2 = 52
    · exact .inl ⟨hlog, if_pos (by rw [hlog]; rfl)⟩
    · refine .inr ⟨hlog, if_neg ?_⟩
      show ¬ m.log2 + 1 = 53
      omega

theorem unpack_pack_zero (s : Sign) : Within (-1021) (pack (.zero s)).unpack :=
  unpack_subnormal s 0

/-- A number with 53 bits is found again in its bits if its exponent fits. -/
theorem unpack_pack_normal (s : Sign) {m : ℕ} {e : Int} (h : 0 < m) (hbits : m.log2 = 52)
    (hlow : -1075 < e) (hhigh : e ≤ 971) :
    (pack (.finite s m e h)).unpack = .finite s m e h := by
  have hexponent : (BitVec.ofNat 11 (e + 1075).toNat).toNat = (e + 1075).toNat := by
    rw [BitVec.toNat_ofNat]
    omega
  have hinfinite : BitVec.ofNat 11 (e + 1075).toNat ≠ -1#11 := by
    intro heq
    rw [heq] at hexponent
    have hfield : (-1#11).toNat = 2047 := rfl
    omega
  have hzero : BitVec.ofNat 11 (e + 1075).toNat ≠ 0#11 := by
    intro heq
    rw [heq] at hexponent
    have hfield : (0#11).toNat = 0 := rfl
    omega
  have hmantissa : 2 ^ 52 + (BitVec.ofNat 52 m).toNat = m := by
    rw [Nat.log2_eq_iff h.ne'] at hbits
    rw [BitVec.toNat_ofNat]
    omega
  rcases pack_cases s e h with ⟨hlarge, -⟩ | ⟨-, ⟨-, hpack⟩ | ⟨hother, -⟩⟩
  · omega
  · show UnpackedFloat.unpack .binary64 (UnpackedFloat.pack .binary64 (.finite s m e h)) = _
    rw [hpack, unpack_normal s _ hinfinite hzero]
    congr 1
    omega
  · exact absurd hbits hother

theorem within_unpack_pack {n : Int} {u : UnpackedFloat} (h : Within n u) (hlow : -1021 ≤ n)
    (hhigh : n ≤ 1024) : Within n (pack u).unpack := by
  cases h with
  | @zero s => exact (unpack_pack_zero s).mono hlow
  | @finite s m e hm hn =>
      by_cases hnormal : m.log2 = 52 ∧ -1075 < e
      · rw [unpack_pack_normal s hm hnormal.1 hnormal.2 (by omega)]
        exact .finite hn
      · show Within n (UnpackedFloat.unpack .binary64 (UnpackedFloat.pack .binary64 _))
        rcases pack_cases s e hm with ⟨hlarge, -⟩ | ⟨-, ⟨hlog, hpack⟩ | ⟨-, hpack⟩⟩
        · omega
        · have hzero : (e + 1075).toNat = 0 := by omega
          rw [hpack, hzero]
          exact (unpack_subnormal s _).mono hlow
        · rw [hpack]
          exact (unpack_subnormal s _).mono hlow

/-- A number that is packed becomes no NaN. -/
theorem unpack_pack_of_finite {u : UnpackedFloat} (h : u.isFinite = true) :
    (pack u).unpack.isInf = true ∨ Within 1024 (pack u).unpack := by
  cases u with
  | zero s => exact .inr ((unpack_pack_zero s).mono (by decide))
  | infinity | notANumber => cases h
  | finite s m e hm =>
      by_cases hlarge : 971 < e
      · rcases pack_cases s e hm with ⟨-, hpack⟩ | ⟨hsmall, -⟩
        · left
          show (UnpackedFloat.unpack .binary64 (UnpackedFloat.pack .binary64 _)).isInf = true
          rw [hpack, unpack_infinite]
          rfl
        · omega
      · have hwithin : Within 1024 (.finite s m e hm) := .finite (by omega)
        exact .inr (within_unpack_pack hwithin (by decide) le_rfl)

theorem log2_of_unpack {x : Float} {s : Sign} {m : ℕ} {e : Int} {h : 0 < m}
    (hx : x.toModel.unpack = .finite s m e h) : m.log2 ≤ 52 := by
  have hlt : m < 2 ^ 53 := by
    unfold Float.Model.unpack UnpackedFloat.unpack at hx
    dsimp only at hx
    split_ifs at hx
    · cases hx
      exact (BitVec.isLt _).trans (by decide)
    · cases hx
      exact BitVec.isLt _
  have hlog := (Nat.log2_lt h.ne').mpr hlt
  omega

/-! ## Arithmetic -/

/-- Finite, with all its bits below `2 ^ n`. -/
def Below (n : Int) (x : Float) : Prop :=
  Within n x.toModel.unpack

theorem Below.mono {n k : Int} {x : Float} (h : Below n x) (hk : n ≤ k) : Below k x :=
  Within.mono h hk

theorem isFinite_cases {x : Float} (h : x.isFinite = true) :
    (∃ s, x.toModel.unpack = .zero s) ∨ ∃ s m e hm, x.toModel.unpack = .finite s m e hm := by
  have h : x.toModel.unpack.isFinite = true := h
  cases hx : x.toModel.unpack with
  | zero s => exact .inl ⟨s, rfl⟩
  | finite s m e hm => exact .inr ⟨s, m, e, hm, rfl⟩
  | infinity | notANumber =>
      rw [hx] at h
      cases h

theorem Below.cases {n : Int} {x : Float} (h : Below n x) :
    (∃ s, x.toModel.unpack = .zero s) ∨
      ∃ s m e hm, x.toModel.unpack = .finite s m e hm ∧ e + 53 ≤ n ∧ totalExponent m e ≤ n := by
  unfold Below at h
  cases hx : x.toModel.unpack with
  | zero s => exact .inl ⟨s, rfl⟩
  | finite s m e hm =>
      rw [hx] at h
      cases h with
      | finite hn =>
          have hlog := log2_of_unpack hx
          refine .inr ⟨s, m, e, hm, rfl, hn, ?_⟩
          unfold totalExponent
          omega
  | infinity | notANumber =>
      rw [hx] at h
      cases h

theorem Below.isFinite {n : Int} {x : Float} (h : Below n x) : x.isFinite = true := by
  show x.toModel.unpack.isFinite = true
  rcases h.cases with ⟨s, hx⟩ | ⟨s, m, e, hm, hx, -, -⟩
  · rw [hx]
    rfl
  · rw [hx]
    rfl

theorem Below.neg {n : Int} {x : Float} (h : Below n x) (hlow : -1021 ≤ n) (hhigh : n ≤ 1024) :
    Below n (-x) :=
  within_unpack_pack (Within.neg h) hlow hhigh

theorem isFinite_roundWithAccuracy (s : Sign) (m : ℕ) (e : Int) (a : Accuracy) :
    (roundWithAccuracy .binary64 s m e a).isFinite = true := by
  obtain ⟨drop, carry, rounded, -, hresult⟩ := roundWithAccuracy_cases s m e a
  rcases hresult with ⟨-, hresult⟩ | ⟨_, hresult⟩
  · rw [hresult]
    rfl
  · rw [hresult]
    rfl

/-- A product of finite numbers is finite or infinite, and nothing else. -/
theorem mul_of_isFinite {x y : Float} (hx : x.isFinite = true) (hy : y.isFinite = true) :
    (x * y).isInf = true ∨ Below 1024 (x * y) := by
  apply unpack_pack_of_finite
  rcases isFinite_cases hx with ⟨s, hx⟩ | ⟨s, m, e, hm, hx⟩
  · rcases isFinite_cases hy with ⟨s', hy⟩ | ⟨s', m', e', hm', hy⟩
    · rw [hx, hy]
      rfl
    · rw [hx, hy]
      rfl
  · rcases isFinite_cases hy with ⟨s', hy⟩ | ⟨s', m', e', hm', hy⟩
    · rw [hx, hy]
      rfl
    · rw [hx, hy]
      exact isFinite_roundWithAccuracy _ _ _ _

theorem log2_mul_le {m n : ℕ} (hm : 0 < m) (hn : 0 < n) :
    (m * n).log2 ≤ m.log2 + n.log2 + 1 := by
  have hlt : m * n < 2 ^ (m.log2 + n.log2 + 2) := by
    calc m * n < 2 ^ (m.log2 + 1) * 2 ^ (n.log2 + 1) :=
          Nat.mul_lt_mul'' Nat.lt_log2_self Nat.lt_log2_self
      _ = 2 ^ (m.log2 + n.log2 + 2) := by rw [← pow_add]; congr 1; omega
  have hlog := (Nat.log2_lt (Nat.mul_pos hm hn).ne').mpr hlt
  omega

theorem log2_shiftLeft {m : ℕ} (k : ℕ) (hm : 0 < m) : (m <<< k).log2 = m.log2 + k := by
  induction k with
  | zero => rfl
  | succ k ih =>
      rw [Nat.shiftLeft_succ, Nat.log2_two_mul (Nat.shiftLeft_pos_iff.mpr hm).ne', ih, add_assoc]

theorem log2_div_add_le {m n : ℕ} (hm : 0 < m) (hn : 0 < n) (hq : 0 < m / n) :
    (m / n).log2 + n.log2 ≤ m.log2 := by
  rw [Nat.le_log2 hm.ne', pow_add]
  calc 2 ^ (m / n).log2 * 2 ^ n.log2 ≤ m / n * n :=
        Nat.mul_le_mul (Nat.log2_self_le hq.ne') (Nat.log2_self_le hn.ne')
    _ ≤ m := Nat.div_mul_le_self m n

theorem Below.mul {a b : Int} {x y : Float} (hx : Below a x) (hy : Below b y)
    (hlow : -1021 ≤ a + b + 1) (hhigh : a + b + 1 ≤ 1024) : Below (a + b + 1) (x * y) := by
  have hproduct : Within (a + b + 1)
      (UnpackedFloat.mul .binary64 x.toModel.unpack y.toModel.unpack) := by
    rcases hx.cases with ⟨s, hx⟩ | ⟨s, m, e, hm, hx, hexponent, htotal⟩
    · rcases hy.cases with ⟨s', hy⟩ | ⟨s', m', e', hm', hy, -, -⟩
      · rw [hx, hy]
        exact .zero
      · rw [hx, hy]
        exact .zero
    · rcases hy.cases with ⟨s', hy⟩ | ⟨s', m', e', hm', hy, hexponent', htotal'⟩
      · rw [hx, hy]
        exact .zero
      · have hlog := log2_mul_le hm hm'
        unfold totalExponent at htotal htotal'
        rw [hx, hy]
        apply within_roundWithAccuracy
        · omega
        · unfold totalExponent
          omega
        · exact hlow
  exact within_unpack_pack hproduct hlow hhigh

/-- The quotient is taken with enough bits, and then it is below twice the bound. -/
theorem within_div {n : Int} {s₁ s₂ : Sign} {m₁ m₂ : ℕ} {e₁ e₂ : Int} {h₁ : 0 < m₁} {h₂ : 0 < m₂}
    (htotal : totalExponent m₁ e₁ ≤ n) (hone : 1 ≤ totalExponent m₂ e₂) (hlow : -1021 ≤ n + 1) :
    Within (n + 1)
      (UnpackedFloat.div .binary64 (.finite s₁ m₁ e₁ h₁) (.finite s₂ m₂ e₂ h₂)) := by
  obtain ⟨target, htarget⟩ : ∃ target : Int, target =
      min (e₁ - e₂) (max (totalExponent m₁ e₁ - totalExponent m₂ e₂ - 53) (-1074)) := ⟨_, rfl⟩
  obtain ⟨shift, hshift⟩ : ∃ shift : ℕ, shift = (e₁ - e₂ - target).toNat := ⟨_, rfl⟩
  have hresult : UnpackedFloat.div .binary64 (.finite s₁ m₁ e₁ h₁) (.finite s₂ m₂ e₂ h₂) =
      roundWithAccuracy .binary64 (s₁ / s₂) (m₁ <<< shift / m₂) target
        (accuracyOfFraction (m₁ <<< shift % m₂) m₂) := by
    rw [hshift, htarget]
    rfl
  rw [hresult]
  have hlog : (m₁ <<< shift / m₂).log2 = 0 ∨
      (m₁ <<< shift / m₂).log2 + m₂.log2 ≤ m₁.log2 + shift := by
    rcases Nat.eq_zero_or_pos (m₁ <<< shift / m₂) with hzero | hpos
    · rw [hzero]
      exact .inl rfl
    · have hdiv := log2_div_add_le (Nat.shiftLeft_pos_iff.mpr h₁) h₂ hpos
      exact .inr (hdiv.trans (log2_shiftLeft shift h₁).le)
  unfold totalExponent at htotal hone htarget
  apply within_roundWithAccuracy
  · omega
  · unfold totalExponent
    omega
  · exact hlow

/-- A finite number whose magnitude is one or more. -/
def atLeastOne (x : Float) : Bool :=
  match x.toModel.unpack with
  | .finite _ m e _ => 1 ≤ totalExponent m e
  | _ => false

theorem atLeastOne_cases {x : Float} (h : atLeastOne x = true) :
    ∃ s m e hm, x.toModel.unpack = .finite s m e hm ∧ 1 ≤ totalExponent m e := by
  unfold atLeastOne at h
  split at h
  case h_1 s m e hm hx => exact ⟨s, m, e, hm, hx, of_decide_eq_true h⟩
  case h_2 => cases h

theorem isFinite_of_atLeastOne {x : Float} (h : atLeastOne x = true) : x.isFinite = true := by
  obtain ⟨s, m, e, hm, hx, -⟩ := atLeastOne_cases h
  show x.toModel.unpack.isFinite = true
  rw [hx]
  rfl

/-- A quotient by a number that is not below one is at most twice as large. -/
theorem Below.div {n : Int} {x y : Float} (hx : Below n x) (hy : atLeastOne y = true)
    (hlow : -1021 ≤ n + 1) (hhigh : n + 1 ≤ 1024) : Below (n + 1) (x / y) := by
  obtain ⟨s, m, e, hm, hy, hone⟩ := atLeastOne_cases hy
  have hquotient : Within (n + 1)
      (UnpackedFloat.div .binary64 x.toModel.unpack y.toModel.unpack) := by
    rw [hy]
    rcases hx.cases with ⟨s₁, hx⟩ | ⟨s₁, m₁, e₁, hm₁, hx, -, htotal⟩
    · rw [hx]
      exact .zero
    · rw [hx]
      exact within_div htotal hone hlow
  exact within_unpack_pack hquotient hlow hhigh

/-! ## Whole numbers -/

/-- An exact number is given room for its rounding first. -/
theorem round_cases (s : Sign) (m : ℕ) (e : Int) :
    ∃ shift : ℕ, shift = (e - max (totalExponent m e - 53) (-1074)).toNat ∧
      UnpackedFloat.round .binary64 s m e =
        roundWithAccuracy .binary64 s (m <<< shift) (e - shift) .exact :=
  ⟨_, rfl, rfl⟩

theorem within_round {n : Int} (s : Sign) {m : ℕ} {e : Int} (hm : 0 < m)
    (htotal : totalExponent m e < n) (hlow : -1021 ≤ n) :
    Within n (UnpackedFloat.round .binary64 s m e) := by
  obtain ⟨shift, hshift, hresult⟩ := round_cases s m e
  rw [hresult]
  have hlog := log2_shiftLeft shift hm
  unfold totalExponent at htotal hshift
  apply within_roundWithAccuracy
  · omega
  · unfold totalExponent
    omega
  · exact hlow

theorem below_toFloat (n : UInt64) : Below 65 n.toFloat := by
  have hwithin : Within 65 (UnpackedFloat.ofUInt64 .binary64 n) := by
    show Within 65 (UnpackedFloat.normalize .binary64 n.toNat 0 .positive)
    unfold UnpackedFloat.normalize
    rcases Nat.eq_zero_or_pos n.toNat with hzero | hpos
    · rw [hzero]
      exact .zero
    · have hcompare : compare (n.toNat : Int) 0 = .gt := Int.compare_eq_gt.mpr (by omega)
      have hlog := (Nat.log2_lt hpos.ne').mpr n.toNat_lt
      rw [hcompare]
      apply within_round .positive hpos
      · unfold totalExponent
        omega
      · decide
  exact within_unpack_pack hwithin (by decide) (by decide)

/-- A whole number times a power of ten is rounded from its exact value. -/
theorem ofScientific_eq {m k : ℕ} (hm : 0 < m) (hk : k ≤ 2048) :
    UnpackedFloat.ofScientific .binary64 m k =
      roundWithAccuracy .binary64 .positive (m <<< 53 * 10 ^ k) (-53) .exact := by
  have hhigh : ¬ ((k : Int) > 2 ^ 11) := by omega
  have hlow : ¬ ((k : Int) < -(2 ^ 11 + (m.log2 : Int))) := by omega
  unfold UnpackedFloat.ofScientific
  rw [dif_neg hm.ne', if_neg hhigh, if_neg hlow, if_pos (Int.natCast_nonneg k)]
  rfl

theorem below_ofNat {m : ℕ} (h : m < 2 ^ 64) : Below 67 (Float.ofNat m) := by
  show Below 67 (Float.ofScientific m false 0)
  unfold Float.ofScientific
  split
  case isTrue =>
    have hone : Below 1 Float.exactlyRepresentablePowersOfTen[0] :=
      .finite (show (-52 : Int) + 53 ≤ 1 by decide)
    exact (below_toFloat m.toUInt64).mul hone (by decide) (by decide)
  case isFalse hlarge =>
    have hpos : 0 < m := by omega
    have hlog := (Nat.log2_lt hpos.ne').mpr h
    have hshift := log2_shiftLeft 53 hpos
    have hwithin : Within 67 (UnpackedFloat.ofScientific .binary64 m (0 : ℕ)) := by
      rw [ofScientific_eq hpos (by decide), pow_zero, mul_one]
      have htotal : totalExponent (m <<< 53) (-53) < 67 := by
        unfold totalExponent
        omega
      exact within_roundWithAccuracy .positive .exact (by decide) htotal (by decide)
    exact within_unpack_pack hwithin (by decide) (by decide)

theorem below_ofInt {n : Int} (h : n.natAbs < 2 ^ 64) : Below 67 (Float.ofInt n) := by
  cases n with
  | ofNat n => exact below_ofNat h
  | negSucc n => exact (below_ofNat h).neg (by decide) (by decide)

/-! ## Powers of ten -/

/-- A power of ten has enough bits to be rounded, and is no infinity yet. -/
theorem atLeastOne_rounded {k : ℕ} (h : k ≤ 307) :
    atLeastOne (.ofModel (pack (UnpackedFloat.ofScientific .binary64 1 k))) = true := by
  have hpower : 2 ^ 53 ≤ 1 <<< 53 * 10 ^ k ∧ 1 <<< 53 * 10 ^ k < 2 ^ 1073 := by
    rw [Nat.shiftLeft_eq, one_mul]
    constructor
    · exact Nat.le_mul_of_pos_right _ (Nat.pow_pos (by decide))
    · calc 2 ^ 53 * 10 ^ k ≤ 2 ^ 53 * 10 ^ 307 :=
            Nat.mul_le_mul_left _ (Nat.pow_le_pow_right (by decide) h)
        _ < 2 ^ 53 * 2 ^ 1020 := by decide +kernel
        _ = 2 ^ 1073 := by rw [← pow_add]
  obtain ⟨power, hpower_eq⟩ : ∃ power, power = 1 <<< 53 * 10 ^ k := ⟨_, rfl⟩
  rw [ofScientific_eq (by decide) (by omega), ← hpower_eq]
  rw [← hpower_eq] at hpower
  have hne : power ≠ 0 := by omega
  have hlow := (Nat.le_log2 hne).mpr hpower.1
  have hhigh := (Nat.log2_lt hne).mpr hpower.2
  obtain ⟨m, e, hm, hround, hbits, hsize⟩ :=
    roundWithAccuracy_normal .positive .exact (show 52 ≤ power.log2 by omega)
      (show -1021 ≤ totalExponent power (-53) by unfold totalExponent; omega)
  unfold totalExponent at hsize
  have hunpack :=
    unpack_pack_normal .positive hm hbits (show -1075 < e by omega) (show e ≤ 971 by omega)
  unfold atLeastOne
  rw [hround, hunpack]
  apply decide_eq_true
  unfold totalExponent
  omega

/-- Powers of ten are not below one, up to the greatest that is finite. -/
theorem atLeastOne_ofScientific {k : ℕ} (h : k ≤ 308) :
    atLeastOne (Float.ofScientific 1 false k) = true := by
  have htable : ∀ k ≤ 22, atLeastOne (Float.ofScientific 1 false k) = true := by decide +kernel
  have hgreatest : atLeastOne (Float.ofScientific 1 false 308) = true := by decide +kernel
  by_cases hsmall : k ≤ 22
  · exact htable k hsmall
  · rcases Nat.lt_or_eq_of_le h with hlt | rfl
    · unfold Float.ofScientific
      rw [dif_neg (by omega)]
      exact atLeastOne_rounded (by omega)
    · exact hgreatest

/-! ## Exact values -/

theorem ofFloat?_of_not_isFinite {x : Float} (h : x.isFinite = false) : ofFloat? x = none := by
  have h : x.toModel.unpack.isFinite = false := h
  unfold ofFloat?
  cases hx : x.toModel.unpack with
  | infinity | notANumber => rfl
  | zero | finite =>
      rw [hx] at h
      cases h

end GrowthCurve.Binary
