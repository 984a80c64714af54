import Mathlib
import GrowthCurve.Proofs.Binary.Order

/-!
# The numbers that doubles stand for

A finite double stands for a rational number. Doubles are kept with 53 bits or
at the least exponent; they are found again in their bits unless they are too
large, and they are ordered by the numbers that they stand for.
-/

namespace GrowthCurve.Binary

open Float.Model UnpackedFloat

/-! ## Values -/

/-- A magnitude with its sign. -/
def signed : Sign → ℚ → ℚ
  | .negative, q => -q
  | .positive, q => q

theorem abs_signed (s : Sign) (q : ℚ) : |signed s q| = |q| := by
  cases s with
  | negative => exact abs_neg q
  | positive => rfl

theorem signed_zero (s : Sign) : signed s 0 = 0 := by
  cases s with
  | negative => exact neg_zero
  | positive => rfl

theorem signed_apply (s : Sign) (m : ℕ) (q : ℚ) : (s.apply m : ℚ) * q = signed s (m * q) := by
  cases s with
  | negative => simp [Sign.apply, signed]
  | positive => simp [Sign.apply, signed]

theorem signed_mul (s t : Sign) (p q : ℚ) : signed s p * signed t q = signed (s * t) (p * q) := by
  cases s <;> cases t
  · exact neg_mul_neg p q
  · exact neg_mul p q
  · exact mul_neg p q
  · rfl

theorem signed_div (s t : Sign) (p q : ℚ) : signed s p / signed t q = signed (s / t) (p / q) := by
  cases s <;> cases t
  · exact neg_div_neg_eq p q
  · exact neg_div q p
  · exact div_neg p
  · rfl

/-- The number that a finite double stands for. -/
def valueOf : UnpackedFloat → ℚ
  | .finite s m e _ => signed s (m * 2 ^ e)
  | .zero _ | .infinity _ | .notANumber => 0

def value (x : Float) : ℚ :=
  valueOf x.toModel.unpack

/-- The exact value that the program decides on. -/
theorem value_of_ofFloat? {x : Float} {b : Binary} (h : ofFloat? x = some b) :
    value x = (if b.negative then -1 else 1) * (b.mantissa * 2 ^ b.exponent) := by
  unfold ofFloat? at h
  unfold value
  split at h
  case h_1 s m e hm hx =>
    obtain rfl := Option.some.inj h
    rw [hx]
    cases s with
    | negative => exact (neg_one_mul _).symm
    | positive => exact (one_mul _).symm
  case h_2 hx =>
    obtain rfl := Option.some.inj h
    rw [hx]
    simp [valueOf]
  case h_3 => cases h
  case h_4 => cases h

/-! ## Canonical form -/

/-- With 53 bits, or with fewer at the least exponent. -/
inductive Canonical : UnpackedFloat → Prop where
  | zero {s : Sign} : Canonical (.zero s)
  | finite {s : Sign} {m : ℕ} {e : ℤ} {h : 0 < m} (bits : m < 2 ^ 53) (low : -1074 ≤ e)
      (full : 2 ^ 52 ≤ m ∨ e = -1074) : Canonical (.finite s m e h)

theorem Canonical.neg {u : UnpackedFloat} (h : Canonical u) : Canonical u.neg := by
  cases h with
  | zero => exact .zero
  | finite hbits hlow hfull => exact .finite hbits hlow hfull

theorem valueOf_neg (u : UnpackedFloat) : valueOf u.neg = -valueOf u := by
  cases u with
  | zero | infinity | notANumber => exact neg_zero.symm
  | finite s m e =>
      cases s with
      | negative => exact (neg_neg _).symm
      | positive => rfl

/-- Every finite double is in canonical form. -/
theorem canonical_unpack {x : Float} (h : x.isFinite = true) : Canonical x.toModel.unpack := by
  have h : (UnpackedFloat.unpack .binary64 x.toModel.toBits.toBitVec).isFinite = true := h
  show Canonical (UnpackedFloat.unpack .binary64 x.toModel.toBits.toBitVec)
  generalize x.toModel.toBits.toBitVec = bits at h ⊢
  have hmantissa := (@unpackMantissa .binary64 bits).isLt
  have hbias : (Format.binary64.exponentBias : ℤ) + (52 : ℕ) = 1075 := rfl
  unfold UnpackedFloat.unpack at h ⊢
  dsimp only at h ⊢
  rw [hbias] at h ⊢
  split_ifs at h ⊢ with hinfinite hnone hzero hnone
  · cases h
  · cases h
  · exact .zero
  · have hexponent : (@unpackExponent .binary64 bits).toNat = 0 := by rw [hzero]; rfl
    rw [hexponent]
    exact .finite (hmantissa.trans (by decide)) (by decide) (.inr rfl)
  · have hexponent : (@unpackExponent .binary64 bits).toNat ≠ 0 :=
      fun heq => hzero (BitVec.eq_of_toNat_eq heq)
    have hleading : (1#1 ++ (@unpackMantissa .binary64 bits)).toNat =
        2 ^ 52 + (@unpackMantissa .binary64 bits).toNat := by
      rw [BitVec.toNat_append, ← Nat.shiftLeft_add_eq_or_of_lt hmantissa]
      rfl
    have hhigh : (@unpackMantissa .binary64 bits).toNat < 2 ^ 52 := hmantissa
    refine .finite ?_ (by omega) (.inl ?_)
    · rw [hleading]
      omega
    · rw [hleading]
      exact Nat.le_add_right _ _

/-- What the bits of a number in canonical form stand for: the number, or an
infinity if the exponent does not fit. -/
def saturate : UnpackedFloat → UnpackedFloat
  | .finite s m e h => if e ≤ 971 then .finite s m e h else .infinity s
  | u => u

theorem saturate_of_le {s : Sign} {m : ℕ} {e : ℤ} {h : 0 < m} (he : e ≤ 971) :
    saturate (.finite s m e h) = .finite s m e h :=
  if_pos he

theorem saturate_of_lt {s : Sign} {m : ℕ} {e : ℤ} {h : 0 < m} (he : 971 < e) :
    saturate (.finite s m e h) = .infinity s :=
  if_neg he.not_ge

theorem unpack_subnormal_exact (s : Sign) {m : ℕ} (h : 0 < m) (hbits : m < 2 ^ 52) :
    UnpackedFloat.unpack .binary64 (packComponents .binary64 s 0#11 (BitVec.ofNat 52 m)) =
      .finite s m (-1074) h := by
  have hmantissa : (BitVec.ofNat 52 m).toNat = m := by
    rw [BitVec.toNat_ofNat, Nat.mod_eq_of_lt hbits]
  have hne : BitVec.ofNat 52 m ≠ 0#52 := by
    intro heq
    rw [heq] at hmantissa
    exact h.ne hmantissa
  unfold UnpackedFloat.unpack
  simp only [unpackMantissa_packComponents, unpackExponent_packComponents,
    unpackSign_packComponents, Sign.ofBitVec_toBitVec, hmantissa]
  rw [if_neg (by decide), if_pos trivial, dif_neg hne]
  rfl

theorem unpack_pack_of_canonical {u : UnpackedFloat} (h : Canonical u) :
    (pack u).unpack = saturate u := by
  cases h with
  | @zero s => exact unpack_packedZero
  | @finite s m e hm hbits hlow hfull =>
      show UnpackedFloat.unpack .binary64 (UnpackedFloat.pack .binary64 (.finite s m e hm)) = _
      rcases le_or_gt e 971 with hsmall | hlarge
      · rw [saturate_of_le hsmall]
        by_cases hnormal : m.log2 = 52
        · exact unpack_pack_normal s hm hnormal (by omega) hsmall
        · have hfew : m < 2 ^ 52 := by
            by_contra hmany
            rw [Nat.log2_eq_iff hm.ne'] at hnormal
            omega
          obtain rfl : e = -1074 := hfull.resolve_left (by omega)
          rcases pack_cases s (-1074) hm with ⟨hlarge, -⟩ | ⟨-, ⟨hlog, -⟩ | ⟨-, hpack⟩⟩
          · exact absurd hlarge hsmall.not_gt
          · exact absurd hlog hnormal
          · rw [hpack, unpack_subnormal_exact s hm hfew]
      · rw [saturate_of_lt hlarge]
        rcases pack_cases s e hm with ⟨-, hpack⟩ | ⟨hfits, -⟩
        · rw [hpack, unpack_infinite]
        · exact absurd hfits hlarge.not_ge

/-! ## Order -/

theorem two_pow_mul_zpow (k : ℕ) (e : ℤ) : (2 : ℚ) ^ k * 2 ^ e = 2 ^ (e + k) := by
  rw [zpow_add₀ two_ne_zero, zpow_natCast, mul_comm]

/-- A multiple of a power of two is one of every lower power. -/
theorem exists_eq_mul_zpow (k : ℤ) {e f : ℤ} (h : f ≤ e) :
    ∃ j : ℤ, (k * 2 ^ e : ℚ) = j * 2 ^ f := by
  refine ⟨k * 2 ^ (e - f).toNat, ?_⟩
  push_cast
  rw [mul_assoc, two_pow_mul_zpow]
  congr 2
  omega

theorem magnitude_lt_zpow {m : ℕ} (e : ℤ) (h : m < 2 ^ 53) : (m * 2 ^ e : ℚ) < 2 ^ (e + 53) := by
  have hcast : (m : ℚ) < 2 ^ 53 := by exact_mod_cast h
  calc (m * 2 ^ e : ℚ) < 2 ^ 53 * 2 ^ e := mul_lt_mul_of_pos_right hcast (by positivity)
    _ = 2 ^ (e + 53) := two_pow_mul_zpow 53 e

theorem zpow_le_magnitude {m : ℕ} (e : ℤ) (h : 2 ^ 52 ≤ m) : 2 ^ (e + 52) ≤ (m * 2 ^ e : ℚ) := by
  have hcast : (2 ^ 52 : ℚ) ≤ m := by exact_mod_cast h
  calc (2 : ℚ) ^ (e + 52) = 2 ^ 52 * 2 ^ e := (two_pow_mul_zpow 52 e).symm
    _ ≤ m * 2 ^ e := mul_le_mul_of_nonneg_right hcast (by positivity)

/-- Lower exponents belong to smaller numbers. -/
theorem magnitude_lt {m n : ℕ} {e f : ℤ} (hm : m < 2 ^ 53) (hn : 2 ^ 52 ≤ n) (h : e < f) :
    (m * 2 ^ e : ℚ) < n * 2 ^ f := by
  calc (m * 2 ^ e : ℚ) < 2 ^ (e + 53) := magnitude_lt_zpow e hm
    _ ≤ 2 ^ (f + 52) := zpow_le_zpow_right₀ one_le_two (by omega)
    _ ≤ n * 2 ^ f := zpow_le_magnitude f hn

theorem magnitude_lt_iff {m n : ℕ} {e f : ℤ} (hm : m < 2 ^ 53) (hn : n < 2 ^ 53)
    (he : 2 ^ 52 ≤ m ∨ e = -1074) (hf : 2 ^ 52 ≤ n ∨ f = -1074) (hlow : -1074 ≤ e)
    (hlow' : -1074 ≤ f) : (m * 2 ^ e : ℚ) < n * 2 ^ f ↔ e < f ∨ e = f ∧ m < n := by
  rcases lt_trichotomy e f with h | rfl | h
  · exact iff_of_true (magnitude_lt hm (hf.resolve_right (by omega)) h) (.inl h)
  · have hpower : (0 : ℚ) < 2 ^ e := by positivity
    rw [mul_lt_mul_iff_of_pos_right hpower, Nat.cast_lt]
    simp
  · have hgreater := magnitude_lt hn (he.resolve_right (by omega)) h
    exact iff_of_false hgreater.asymm (by omega)

theorem magnitude_pos {m : ℕ} (e : ℤ) (hm : 0 < m) : (0 : ℚ) < m * 2 ^ e := by
  have hcast : (0 : ℚ) < m := by exact_mod_cast hm
  positivity

theorem rank_negative_lt (m : ℕ) (e : ℤ) (h : 0 < m) (s : Sign) :
    rank (.finite .negative m e h) < rank (.zero s) :=
  Prod.Lex.toLex_lt_toLex.mpr (.inl neg_one_lt_zero)

theorem rank_lt_positive (m : ℕ) (e : ℤ) (h : 0 < m) (s : Sign) :
    rank (.zero s) < rank (.finite .positive m e h) :=
  Prod.Lex.toLex_lt_toLex.mpr (.inl one_pos)

/-- Numbers in canonical form are ordered by their values. -/
theorem rank_lt_iff {u v : UnpackedFloat} (hu : Canonical u) (hv : Canonical v) :
    rank u < rank v ↔ valueOf u < valueOf v := by
  cases hu with
  | @zero s =>
      cases hv with
      | zero => exact iff_of_false (lt_irrefl _) (lt_irrefl _)
      | @finite s' m' e' hm' =>
          have hpos := magnitude_pos e' hm'
          cases s' with
          | negative =>
              exact iff_of_false (rank_negative_lt m' e' hm' s).asymm (neg_neg_of_pos hpos).asymm
          | positive => exact iff_of_true (rank_lt_positive m' e' hm' s) hpos
  | @finite s m e hm hbits hlow hfull =>
      have hpos := magnitude_pos e hm
      cases hv with
      | @zero s' =>
          cases s with
          | negative => exact iff_of_true (rank_negative_lt m e hm s') (neg_neg_of_pos hpos)
          | positive => exact iff_of_false (rank_lt_positive m e hm s').asymm hpos.asymm
      | @finite s' m' e' hm' hbits' hlow' hfull' =>
          have hpos' := magnitude_pos e' hm'
          cases s <;> cases s'
          case negative.positive =>
            exact iff_of_true
              ((rank_negative_lt m e hm .positive).trans (rank_lt_positive m' e' hm' .positive))
              ((neg_neg_of_pos hpos).trans hpos')
          case positive.negative =>
            exact iff_of_false
              ((rank_negative_lt m' e' hm' .positive).trans
                (rank_lt_positive m e hm .positive)).asymm
              ((neg_neg_of_pos hpos').trans hpos).asymm
          case negative.negative =>
            show toLex (_, toLex (-e, -(m : ℤ))) < toLex (_, toLex (-e', -(m' : ℤ))) ↔
              -(m * 2 ^ e : ℚ) < -(m' * 2 ^ e' : ℚ)
            rw [neg_lt_neg_iff, magnitude_lt_iff hbits' hbits hfull' hfull hlow' hlow,
              Prod.Lex.toLex_lt_toLex, Prod.Lex.toLex_lt_toLex]
            omega
          case positive.positive =>
            show toLex (_, toLex (e, (m : ℤ))) < toLex (_, toLex (e', (m' : ℤ))) ↔
              (m * 2 ^ e : ℚ) < (m' * 2 ^ e' : ℚ)
            rw [magnitude_lt_iff hbits hbits' hfull hfull' hlow hlow',
              Prod.Lex.toLex_lt_toLex, Prod.Lex.toLex_lt_toLex]
            omega

theorem canonical_inj {u v : UnpackedFloat} (hu : Canonical u) (hv : Canonical v)
    (h : valueOf u = valueOf v) (hne : valueOf u ≠ 0) : u = v := by
  have hrank : rank u = rank v := by
    apply le_antisymm
    · rw [← not_lt, rank_lt_iff hv hu, h]
      exact lt_irrefl _
    · rw [← not_lt, rank_lt_iff hu hv, h]
      exact lt_irrefl _
  cases hu with
  | zero => exact absurd rfl hne
  | @finite s m e =>
      cases hv with
      | zero => exact absurd h hne
      | @finite s' m' e' =>
          have hkey := congrArg ofLex hrank
          cases s <;> cases s' <;> simp [rank] at hkey
          · obtain ⟨rfl, rfl⟩ := hkey
            rfl
          · obtain ⟨rfl, rfl⟩ := hkey
            rfl

/-- Infinities in place of numbers that are too large do not change the order. -/
theorem rank_saturate_le {u v : UnpackedFloat} (hu : Canonical u) (hv : Canonical v)
    (h : rank u ≤ rank v) : rank (saturate u) ≤ rank (saturate v) := by
  cases hu with
  | zero =>
      cases hv with
      | zero => exact h
      | @finite s' =>
          cases s' <;> simp only [saturate] <;> split_ifs <;>
            simp only [rank, Prod.Lex.toLex_le_toLex] at h ⊢ <;> omega
  | @finite s =>
      cases hv with
      | zero =>
          cases s <;> simp only [saturate] <;> split_ifs <;>
            simp only [rank, Prod.Lex.toLex_le_toLex] at h ⊢ <;> omega
      | @finite s' =>
          cases s <;> cases s' <;> simp only [saturate] <;> split_ifs <;>
            simp only [rank, Prod.Lex.toLex_le_toLex, le_refl] at h ⊢ <;> omega

end GrowthCurve.Binary
