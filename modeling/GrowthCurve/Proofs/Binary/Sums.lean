import Mathlib
import GrowthCurve.Fit.Score
import GrowthCurve.Proofs.Binary.Special

/-!
# Sums, squares and means of doubles

A sum of numbers that are not negative is positive if one of them is. Finite
numbers have a mean that is a number, though it may be infinite.
-/

namespace GrowthCurve.Binary

open Float.Model UnpackedFloat

variable {x y : Float}

/-! ## Squares -/

theorem unpack_of_ofFloat? {m : ℕ} {e : ℤ} (h : ofFloat? x = some ⟨false, m, e⟩) (hm : 0 < m) :
    x.toModel.unpack = .finite .positive m e hm := by
  unfold ofFloat? at h
  split at h
  case h_1 s m' e' hm' hx =>
    cases s with
    | negative => cases h
    | positive =>
        cases h
        exact hx
  case h_2 =>
    obtain rfl : 0 = m := congrArg Binary.mantissa (Option.some.inj h)
    exact absurd hm (lt_irrefl 0)
  case h_3 | h_4 => cases h

theorem unpack_one : (1 : Float).toModel.unpack = .finite .positive (2 ^ 52) (-52) (by decide) :=
  unpack_of_ofFloat? (by decide) _

theorem value_one : value 1 = 1 := by
  have hone : ofFloat? 1 = some ⟨false, 2 ^ 52, -52⟩ := by decide
  rw [value_of_ofFloat? hone]
  norm_num

theorem value_ne_zero {s : Sign} {m : ℕ} {e : ℤ} {hm : 0 < m}
    (h : x.toModel.unpack = .finite s m e hm) : value x ≠ 0 := by
  unfold value
  rw [h, ← abs_pos, valueOf, abs_signed, abs_of_pos (magnitude_pos e hm)]
  exact magnitude_pos e hm

theorem unpack_of_value_eq_zero (hx : x.isFinite = true) (h : value x = 0) :
    ∃ s, x.toModel.unpack = .zero s := by
  rcases isFinite_cases hx with hzero | ⟨s, m, e, hm, hx⟩
  · exact hzero
  · exact absurd h (value_ne_zero hx)

/-- There is one double for each value but zero. -/
theorem eq_of_roundsTo (hy : y.isFinite = true) (hne : value y ≠ 0) (h : RoundsTo (value y) x) :
    x = y := by
  obtain ⟨u, hu, hvalue, hx⟩ := h
  obtain ⟨u', hu', hvalue', hy'⟩ := roundsTo_value hy
  have hself := rounded_value hy
  obtain rfl : u = u' := by
    have hzero : valueOf u ≠ 0 := by
      rwa [hvalue.unique hself]
    exact canonical_inj hu hu' (hvalue.unique hvalue') hzero
  exact eq_of_unpack_eq (hx.trans hy'.symm)

theorem one_mul_self (x : Float) : 1 * x = x := by
  have hproduct : (1 * x).toModel.unpack =
      (Float.Model.pack (UnpackedFloat.mul .binary64 (1 : Float).toModel.unpack
        x.toModel.unpack)).unpack := rfl
  rw [unpack_one] at hproduct
  cases hx : x.toModel.unpack with
  | notANumber =>
      rw [hx] at hproduct
      exact eq_of_unpack_eq (hproduct.trans (unpack_packedNaN.trans hx.symm))
  | infinity s =>
      rw [hx] at hproduct
      refine eq_of_unpack_eq (hproduct.trans (Eq.trans ?_ hx.symm))
      cases s <;> exact unpack_pack_infinity _
  | zero s =>
      rw [hx] at hproduct
      refine eq_of_unpack_eq (hproduct.trans (Eq.trans ?_ hx.symm))
      cases s <;> exact unpack_packedZero
  | finite s m e hm =>
      have hfinite : x.isFinite = true := by
        show x.toModel.unpack.isFinite = true
        rw [hx]
        rfl
      have hmul := roundsTo_mul (show (1 : Float).isFinite = true by decide) hfinite
      rw [value_one, one_mul] at hmul
      exact eq_of_roundsTo hfinite (value_ne_zero hx) hmul

theorem power_two (x : Float) : Scalar.power x 2 = x * x :=
  congrArg (· * x) (one_mul_self x)

/-- The least positive double. -/
def least : Float :=
  Float.ofBits 1

theorem value_least : value least = 2 ^ (-1074 : ℤ) := by
  have hleast : ofFloat? least = some ⟨false, 1, -1074⟩ := by decide
  rw [value_of_ofFloat? hleast]
  simp

theorem RoundsTo.pos {v : ℚ} (h : RoundsTo v x) (hv : 2 ^ (-1074 : ℤ) ≤ v) : 0 < x := by
  have hleast : RoundsTo (2 ^ (-1074 : ℤ)) least := by
    rw [← value_least]
    exact roundsTo_value (by decide)
  exact lt_of_lt_of_le (by decide) (hleast.le h hv)

/-- The square of a number is positive unless it is too small for a double. -/
theorem square_pos (hx : x.isFinite = true) (h : 2 ^ (-537 : ℤ) ≤ |value x|) : 0 < x * x := by
  apply (roundsTo_mul hx hx).pos
  calc (2 : ℚ) ^ (-1074 : ℤ) = 2 ^ (-537 : ℤ) * 2 ^ (-537 : ℤ) := by
        rw [← zpow_add₀ two_ne_zero]
        rfl
    _ ≤ |value x| * |value x| := mul_self_le_mul_self (by positivity) h
    _ = value x * value x := abs_mul_abs_self _

/-! ## Sums -/

section Sums

variable {xs : List Float}

theorem isNaN_foldl_add (xs : List Float) (h : x.isNaN = true) :
    (xs.foldl (· + ·) x).isNaN = true := by
  induction xs generalizing x with
  | nil => exact h
  | cons y xs ih => exact ih (isNaN_add_left h y)

/-- One NaN makes the sum NaN. -/
theorem isNaN_sum (hy : y ∈ xs) (h : y.isNaN = true) : (Scalar.sum xs).isNaN = true := by
  obtain ⟨before, after, rfl⟩ := List.append_of_mem hy
  unfold Scalar.sum
  rw [List.foldl_append, List.foldl_cons]
  exact isNaN_foldl_add after (isNaN_add_right _ h)

theorem foldl_add_pos_iff (hx : 0 ≤ x) (hxs : ∀ y ∈ xs, 0 ≤ y) :
    0 ≤ xs.foldl (· + ·) x ∧ (0 < xs.foldl (· + ·) x ↔ 0 < x ∨ ∃ y ∈ xs, 0 < y) := by
  induction xs generalizing x with
  | nil => simpa using hx
  | cons y xs ih =>
      obtain ⟨hy, hxs⟩ := List.forall_mem_cons.mp hxs
      obtain ⟨hnonneg, hpos⟩ := ih (nonneg_add hx hy) hxs
      refine ⟨hnonneg, ?_⟩
      rw [List.foldl_cons, hpos, pos_add_iff hx hy, or_assoc]
      simp only [List.mem_cons, exists_eq_or_imp]

/-- A sum of numbers that are not negative is positive if one of them is. -/
theorem sum_pos_iff (hxs : ∀ y ∈ xs, 0 ≤ y) :
    0 ≤ Scalar.sum xs ∧ (0 < Scalar.sum xs ↔ ∃ y ∈ xs, 0 < y) := by
  have hstart : (0 : Float) ≤ -Scalar.ofNat 0 := by decide
  have hzero : ¬ (0 : Float) < -Scalar.ofNat 0 := by decide
  obtain ⟨hnonneg, hpos⟩ := foldl_add_pos_iff hstart hxs
  exact ⟨hnonneg, hpos.trans (or_iff_right hzero)⟩

theorem isNaN_foldl_add_of_finite (hx : x.isNaN = false) (hxs : ∀ y ∈ xs, y.isFinite = true) :
    (xs.foldl (· + ·) x).isNaN = false := by
  induction xs generalizing x with
  | nil => exact hx
  | cons y xs ih =>
      obtain ⟨hy, hxs⟩ := List.forall_mem_cons.mp hxs
      refine ih ?_ hxs
      rcases isFinite_of_not_isNaN hx with hfinite | ⟨s, hinfinite⟩
      · exact (roundsTo_add hfinite hy).isNaN_eq_false
      · exact isNaN_of_infinite (infinite_add_of_isFinite hinfinite hy)

theorem le_foldl_add (hx : 0 ≤ x) (hxs : ∀ y ∈ xs, 0 ≤ y) : x ≤ xs.foldl (· + ·) x := by
  induction xs generalizing x with
  | nil => exact le_self (isNaN_of_nonneg hx)
  | cons y xs ih =>
      obtain ⟨hy, hxs⟩ := List.forall_mem_cons.mp hxs
      exact le_trans (le_add_of hx hy).1 (ih (nonneg_add hx hy) hxs)

/-- A sum of numbers that are not negative is at least as large as any of them. -/
theorem le_sum (hxs : ∀ y ∈ xs, 0 ≤ y) (hy : y ∈ xs) : y ≤ Scalar.sum xs := by
  obtain ⟨before, after, rfl⟩ := List.append_of_mem hy
  obtain ⟨hbefore, hafter⟩ := List.forall_mem_append.mp hxs
  obtain ⟨hy, hafter⟩ := List.forall_mem_cons.mp hafter
  have hstart : (0 : Float) ≤ -Scalar.ofNat 0 := by decide
  have hsofar := (foldl_add_pos_iff hstart hbefore).1
  unfold Scalar.sum
  rw [List.foldl_append, List.foldl_cons]
  exact le_trans (le_add_of hsofar hy).2 (le_foldl_add (nonneg_add hsofar hy) hafter)

/-- Numbers up to a power of two add up to that many times this power at the
most, as long as their count has 53 bits. -/
theorem abs_foldl_add_le {j : ℕ} {k : ℤ} (hk : -1074 ≤ k) (hk' : k ≤ 971)
    (hx : x.isFinite = true ∧ |value x| ≤ j * 2 ^ k)
    (hxs : ∀ y ∈ xs, y.isFinite = true ∧ |value y| ≤ 2 ^ k) (hcount : j + xs.length < 2 ^ 53) :
    (xs.foldl (· + ·) x).isFinite = true ∧
      |value (xs.foldl (· + ·) x)| ≤ (j + xs.length : ℕ) * 2 ^ k := by
  induction xs generalizing j x with
  | nil => exact hx
  | cons y xs ih =>
      obtain ⟨hy, hxs⟩ := List.forall_mem_cons.mp hxs
      rw [List.length_cons] at hcount
      have hdouble : Rounded ((j + 1 : ℕ) * 2 ^ k) ((j + 1 : ℕ) * 2 ^ k) := by
        have hself := rounded_self (m := (j + 1 : ℕ)) (by
          rw [abs_of_nonneg (Int.natCast_nonneg _)]
          exact_mod_cast (by omega : j + 1 < 2 ^ 53)) hk
        rwa [Int.cast_natCast] at hself
      have hexact : |value x + value y| ≤ (j + 1 : ℕ) * 2 ^ k := by
        calc |value x + value y| ≤ |value x| + |value y| := abs_add_le _ _
          _ ≤ j * 2 ^ k + 2 ^ k := add_le_add hx.2 hy.2
          _ = (j + 1 : ℕ) * 2 ^ k := by push_cast; ring
      have hsmall : ((j + 1 : ℕ) * 2 ^ k : ℚ) < 2 ^ (1024 : ℤ) := by
        have hbits := magnitude_lt_zpow k (by omega : j + 1 < 2 ^ 53)
        exact hbits.trans_le (zpow_le_zpow_right₀ one_le_two (by omega))
      have hstep := (roundsTo_add hx.1 hy.1).bounded hdouble hexact hsmall
      have hrest := ih hstep hxs (by omega)
      rwa [show j + 1 + xs.length = j + (xs.length + 1) by omega] at hrest

theorem abs_sum_le {k : ℤ} (hk : -1074 ≤ k) (hk' : k ≤ 971) (hcount : xs.length < 2 ^ 53)
    (hxs : ∀ y ∈ xs, y.isFinite = true ∧ |value y| ≤ 2 ^ k) :
    (Scalar.sum xs).isFinite = true ∧ |value (Scalar.sum xs)| ≤ xs.length * 2 ^ k := by
  have hstart : ofFloat? (-Scalar.ofNat 0) = some ⟨true, 0, 0⟩ := by decide
  have hzero : value (-Scalar.ofNat 0) = 0 := by
    rw [value_of_ofFloat? hstart]
    simp
  have hbound := abs_foldl_add_le (j := 0) (x := -Scalar.ofNat 0) hk hk'
    ⟨by decide, by rw [hzero]; simp⟩ hxs (by omega)
  rwa [Nat.zero_add] at hbound

theorem infinite_foldl_add {s : Sign} (xs : List Float) (h : x.toModel.unpack = .infinity s) :
    (xs.foldl (· + ·) x).isNaN = true ∨
      (xs.foldl (· + ·) x).toModel.unpack = .infinity s := by
  induction xs generalizing x with
  | nil => exact .inr h
  | cons y xs ih =>
      rcases infinite_add h y with hnan | hinfinite
      · exact .inl (isNaN_foldl_add xs hnan)
      · exact ih hinfinite

/-- One infinity makes the sum infinite, unless another one makes it NaN. -/
theorem infinite_sum {s : Sign} (hy : y ∈ xs) (h : y.toModel.unpack = .infinity s) :
    (Scalar.sum xs).isNaN = true ∨ (Scalar.sum xs).toModel.unpack = .infinity s := by
  obtain ⟨before, after, rfl⟩ := List.append_of_mem hy
  unfold Scalar.sum
  rw [List.foldl_append, List.foldl_cons]
  rcases add_infinite (before.foldl (· + ·) (-Scalar.ofNat 0)) h with hnan | hinfinite
  · exact .inl (isNaN_foldl_add after hnan)
  · exact infinite_foldl_add after hinfinite

end Sums

/-! ## Means -/

theorem roundsTo_toFloat (n : UInt64) : RoundsTo n.toNat n.toFloat := by
  have hround := rounded_normalize n.toNat 0 .positive
  rw [zpow_zero, mul_one, Int.cast_natCast] at hround
  exact roundsTo_pack hround

theorem rounded_natCast {m : ℕ} (h : m ≤ 2 ^ 53) : Rounded m m := by
  rcases h.lt_or_eq with hlt | rfl
  · have hbits : |(m : ℤ)| < 2 ^ 53 := by
      rw [abs_of_nonneg (Int.natCast_nonneg _)]
      exact_mod_cast hlt
    have hself := rounded_self hbits (e := 0) (by decide)
    rwa [zpow_zero, mul_one, Int.cast_natCast] at hself
  · exact_mod_cast rounded_two_zpow (e := 53) (by decide)

/-- Words of 53 bits are kept exactly, and so is the first one that is longer. -/
theorem value_toFloat {n : UInt64} (h : n.toNat ≤ 2 ^ 53) : value n.toFloat = n.toNat :=
  ((roundsTo_toFloat n).rounded (below_toFloat n).isFinite).unique (rounded_natCast h)

/-- Whole numbers are rounded like all others. -/
theorem roundsTo_ofNat (m : ℕ) : RoundsTo m (Float.ofNat m) := by
  show RoundsTo m (Float.ofScientific m false 0)
  unfold Float.ofScientific
  split
  case isTrue h =>
    have hone : Float.exactlyRepresentablePowersOfTen[0] = 1 := by decide
    have hword : m.toUInt64.toNat = m := by
      rw [Nat.toUInt64_eq, UInt64.toNat_ofNat', Nat.mod_eq_of_lt (h.1.trans (by decide))]
    have hproduct := roundsTo_mul (below_toFloat m.toUInt64).isFinite
      (show (1 : Float).isFinite = true by decide)
    rw [value_toFloat (by rw [hword]; exact h.1.le), value_one, mul_one, hword] at hproduct
    show RoundsTo m (m.toUInt64.toFloat * Float.exactlyRepresentablePowersOfTen[0])
    rw [hone]
    exact hproduct
  case isFalse h =>
    rcases Nat.eq_zero_or_pos m with rfl | hpos
    · exact absurd ⟨by decide, by decide⟩ h
    · have hexact : Describes (m <<< 53) (m <<< 53 : ℕ) .exact := rfl
      have hlog := log2_shiftLeft 53 hpos
      have hround := rounded_roundWithAccuracy .positive hexact (e := -53)
        (by unfold totalExponent; omega)
      have hvalue : ((m <<< 53 : ℕ) : ℚ) * 2 ^ (-53 : ℤ) = m := by
        have hscaled := shiftLeft_scaled m 53 0
        rwa [zpow_zero, mul_one] at hscaled
      rw [hvalue, signed] at hround
      have hresult : UnpackedFloat.ofScientific .binary64 m (0 : ℕ) =
          roundWithAccuracy .binary64 .positive (m <<< 53) (-53) .exact := by
        rw [ofScientific_eq hpos (by decide), pow_zero, mul_one]
      rw [← hresult] at hround
      exact roundsTo_pack hround

theorem value_ofNat {m : ℕ} (h : m < 2 ^ 53) : value (Float.ofNat m) = m :=
  ((roundsTo_ofNat m).rounded (below_ofNat (h.trans (by decide))).isFinite).unique
    (rounded_natCast h.le)

theorem ofNat_pos {m : ℕ} (h : 0 < m) : 0 < Float.ofNat m := by
  apply (roundsTo_ofNat m).pos
  have hone : (1 : ℚ) ≤ m := by exact_mod_cast h
  have hsmall : (2 : ℚ) ^ (-1074 : ℤ) ≤ 2 ^ (0 : ℤ) :=
    zpow_le_zpow_right₀ one_le_two (by decide)
  rw [zpow_zero] at hsmall
  exact hsmall.trans hone

section Means

variable {ys : List Float}

theorem mean_of_mem (h : y ∈ ys) : mean ys = Scalar.sum ys / Float.ofNat ys.length := by
  unfold mean
  rw [if_neg]
  · rfl
  · rw [List.isEmpty_iff]
    exact List.ne_nil_of_mem h

/-- Finite numbers have a mean. -/
theorem isNaN_mean (hfinite : ∀ y ∈ ys, y.isFinite = true) (hlength : ys.length < 2 ^ 64) :
    (mean ys).isNaN = false := by
  cases ys with
  | nil => decide
  | cons first rest =>
      have hcount := (below_ofNat hlength).isFinite
      have hpos := ofNat_pos (Nat.succ_pos rest.length)
      have hsum : (Scalar.sum (first :: rest)).isNaN = false :=
        isNaN_foldl_add_of_finite (by decide) hfinite
      rw [mean_of_mem List.mem_cons_self]
      rcases isFinite_of_not_isNaN hsum with hsum | ⟨s, hsum⟩
      · have hne := ((pos_iff_value hcount).mp hpos).ne'
        exact (roundsTo_div hsum hcount hne).isNaN_eq_false
      · rcases infinite_div hsum hpos with ⟨hlarge, -⟩ | hinfinite
        · rw [List.length_cons] at hcount
          rw [hcount] at hlarge
          cases hlarge
        · exact isNaN_of_infinite hinfinite

/-- The mean of numbers up to a power of two is not larger either. -/
theorem abs_mean_le {k : ℤ} (hne : ys ≠ []) (hk : -1074 ≤ k) (hk' : k ≤ 971)
    (hcount : ys.length < 2 ^ 53) (hys : ∀ y ∈ ys, y.isFinite = true ∧ |value y| ≤ 2 ^ k) :
    (mean ys).isFinite = true ∧ |value (mean ys)| ≤ 2 ^ k := by
  obtain ⟨y, hy⟩ := List.exists_mem_of_ne_nil ys hne
  obtain ⟨hsum, hbound⟩ := abs_sum_le hk hk' hcount hys
  have hfinite := (below_ofNat (hcount.trans (by decide))).isFinite
  have hlength : (0 : ℚ) < ys.length := by exact_mod_cast List.length_pos_of_mem hy
  have hvalue := value_ofNat hcount
  rw [mean_of_mem hy]
  refine (roundsTo_div hsum hfinite (by rw [hvalue]; exact hlength.ne')).bounded
    (rounded_two_zpow hk) ?_ (zpow_lt_zpow_right₀ one_lt_two (by omega))
  rw [hvalue, abs_div, abs_of_pos hlength, div_le_iff₀ hlength, mul_comm]
  exact hbound

theorem infinite_mean {s : Sign} (hy : y ∈ ys) (h : y.toModel.unpack = .infinity s) :
    (mean ys).isNaN = true ∨ (mean ys).toModel.unpack = .infinity s := by
  have hpos : 0 < Float.ofNat ys.length := ofNat_pos (List.length_pos_of_mem hy)
  rw [mean_of_mem hy]
  rcases infinite_sum hy h with hnan | hinfinite
  · exact .inl (isNaN_div_left hnan _)
  · exact (infinite_div hinfinite hpos).imp_left And.right

end Means

end GrowthCurve.Binary
