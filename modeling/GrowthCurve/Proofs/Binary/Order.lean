import Mathlib
import GrowthCurve.Scalar
import GrowthCurve.Proofs.Binary.Range

/-!
# The order of doubles

Apart from NaN, which compares with nothing, doubles are ordered by a key: sign
and kind first, then exponent and mantissa. The greatest of several numbers is
below a bound exactly if all of them are, those that are NaN left aside.
-/

namespace GrowthCurve.Binary

open Float.Model UnpackedFloat

/-! ## Unpacked numbers -/

theorem compare_neg (m n : ℤ) : compare (-m) (-n) = (compare m n).swap := by
  rw [Int.compare_swap]
  rcases lt_trichotomy n m with h | h | h
  · rw [Int.compare_eq_lt.mpr h, Int.compare_eq_lt.mpr (neg_lt_neg h)]
  · rw [Int.compare_eq_eq.mpr h, Int.compare_eq_eq.mpr (congrArg _ h.symm)]
  · rw [Int.compare_eq_gt.mpr h, Int.compare_eq_gt.mpr (neg_lt_neg h)]

theorem compare_natCast (m n : ℕ) : compare (m : ℤ) n = compare m n := by
  rcases lt_trichotomy m n with h | h | h
  · rw [Int.compare_eq_lt.mpr (by omega), Nat.compare_eq_lt.mpr h]
  · rw [h, Int.compare_eq_eq.mpr rfl, Nat.compare_eq_eq.mpr rfl]
  · rw [Int.compare_eq_gt.mpr (by omega), Nat.compare_eq_gt.mpr h]

/-- The key of a number. With 53 bits or the least exponent, the greater of two
numbers of the same sign has the greater exponent or, at the same exponent, the
greater mantissa. -/
def rank : UnpackedFloat → ℤ ×ₗ ℤ ×ₗ ℤ
  | .infinity .negative => toLex (-2, toLex (0, 0))
  | .finite .negative m e _ => toLex (-1, toLex (-e, -m))
  | .zero _ | .notANumber => toLex (0, toLex (0, 0))
  | .finite .positive m e _ => toLex (1, toLex (e, m))
  | .infinity .positive => toLex (2, toLex (0, 0))

theorem compare_eq_rank {u v : UnpackedFloat} (hu : u.isNaN = false) (hv : v.isNaN = false) :
    u.compare v = some (compare (rank u) (rank v)) := by
  cases u with
  | notANumber => cases hu
  | infinity s | zero s =>
      cases v with
      | notANumber => cases hv
      | infinity s' | zero s' | finite s' => cases s <;> cases s' <;> rfl
  | finite s m e =>
      cases v with
      | notANumber => cases hv
      | infinity s' | zero s' => cases s <;> cases s' <;> rfl
      | finite s' m' e' =>
          have hsame : (compare e e').then (compare m m') =
              (compare e e').then (compare (m : ℤ) m') := by
            rw [compare_natCast]
          cases s <;> cases s'
          case negative.positive | positive.negative => rfl
          case negative.negative =>
            show some ((compare e e').then (compare m m')).swap =
              some ((compare (-e) (-e')).then (compare (-(m : ℤ)) (-m')))
            rw [compare_neg, compare_neg, hsame, Ordering.swap_then]
          case positive.positive => exact congrArg some hsame

theorem compare_eq_none {u v : UnpackedFloat} (h : u.isNaN = true ∨ v.isNaN = true) :
    u.compare v = none := by
  cases u with
  | notANumber => rfl
  | infinity s | zero s | finite s =>
      cases v with
      | notANumber => cases s <;> rfl
      | infinity | zero | finite => simp [UnpackedFloat.isNaN] at h

/-- What a comparison says about two numbers, neither of which is NaN then. -/
theorem compare_eq_some_iff {u v : UnpackedFloat} {o : Ordering} :
    u.compare v = some o ↔
      u.isNaN = false ∧ v.isNaN = false ∧ compare (rank u) (rank v) = o := by
  by_cases h : u.isNaN = true ∨ v.isNaN = true
  · rw [compare_eq_none h]
    rcases h with h | h <;> simp [h]
  · obtain ⟨hu, hv⟩ := not_or.mp h
    rw [Bool.not_eq_true] at hu hv
    simp [compare_eq_rank hu hv, hu, hv]

/-! ## Doubles -/

/-- The key of a double. -/
def place (x : Float) : ℤ ×ₗ ℤ ×ₗ ℤ :=
  rank x.toModel.unpack

section

variable {x y : Float}

theorem lt_iff : x < y ↔ x.isNaN = false ∧ y.isNaN = false ∧ place x < place y := by
  have hmodel : x < y ↔ x.toModel.unpack.compare y.toModel.unpack = some .lt := by
    show decide (UnpackedFloat.lt _ _ = true) = true ↔ _
    simp [UnpackedFloat.lt]
  rw [hmodel, compare_eq_some_iff, compare_lt_iff_lt]
  rfl

theorem beq_iff : (x == y) = true ↔ x.isNaN = false ∧ y.isNaN = false ∧ place x = place y := by
  have hmodel : (x == y) = true ↔ x.toModel.unpack.compare y.toModel.unpack = some .eq := by
    show UnpackedFloat.beq _ _ = true ↔ _
    simp [UnpackedFloat.beq]
  rw [hmodel, compare_eq_some_iff, compare_eq_iff_eq]
  rfl

theorem le_iff : x ≤ y ↔ x.isNaN = false ∧ y.isNaN = false ∧ place x ≤ place y := by
  have hmodel : x ≤ y ↔ x < y ∨ (x == y) = true := by
    show decide (UnpackedFloat.le _ _ = true) = true ↔
      decide (UnpackedFloat.lt _ _ = true) = true ∨ UnpackedFloat.beq _ _ = true
    unfold UnpackedFloat.le UnpackedFloat.lt UnpackedFloat.beq
    generalize UnpackedFloat.compare _ _ = o
    cases o with
    | none => simp
    | some o => cases o <;> simp
  rw [hmodel, lt_iff, beq_iff, ← and_or_left, ← and_or_left, ← le_iff_lt_or_eq]

theorem le_self (hx : x.isNaN = false) : x ≤ x :=
  le_iff.mpr ⟨hx, hx, le_rfl⟩

theorem le_of_lt (h : x < y) : x ≤ y := by
  obtain ⟨hx, hy, hplace⟩ := lt_iff.mp h
  exact le_iff.mpr ⟨hx, hy, hplace.le⟩

/-- The order is total as long as there is no NaN. -/
theorem le_of_not_lt (hx : x.isNaN = false) (hy : y.isNaN = false) (h : ¬ x < y) : y ≤ x :=
  le_iff.mpr ⟨hy, hx, not_lt.mp fun hplace => h (lt_iff.mpr ⟨hx, hy, hplace⟩)⟩

theorem le_trans {z : Float} (hxy : x ≤ y) (hyz : y ≤ z) : x ≤ z := by
  obtain ⟨hx, -, hplace⟩ := le_iff.mp hxy
  obtain ⟨-, hz, hplace'⟩ := le_iff.mp hyz
  exact le_iff.mpr ⟨hx, hz, hplace.trans hplace'⟩

theorem lt_of_lt_of_le {z : Float} (hxy : x < y) (hyz : y ≤ z) : x < z := by
  obtain ⟨hx, -, hplace⟩ := lt_iff.mp hxy
  obtain ⟨-, hz, hplace'⟩ := le_iff.mp hyz
  exact lt_iff.mpr ⟨hx, hz, hplace.trans_le hplace'⟩

theorem isFinite_eq_rank {u : UnpackedFloat} (h : u.isNaN = false) :
    u.isFinite = decide (|(ofLex (rank u)).1| < 2) := by
  cases u with
  | notANumber => cases h
  | infinity s | zero s | finite s => cases s <;> rfl

/-- Equal numbers are finite together. -/
theorem isFinite_eq_of_beq (h : (x == y) = true) : x.isFinite = y.isFinite := by
  obtain ⟨hx, hy, hplace⟩ := beq_iff.mp h
  have hrank : rank x.toModel.unpack = rank y.toModel.unpack := hplace
  show UnpackedFloat.isFinite _ = UnpackedFloat.isFinite _
  rw [isFinite_eq_rank hx, isFinite_eq_rank hy, hrank]

/-! ## The greatest of several numbers -/

theorem max_eq (hx : x.isNaN = false) : Scalar.max x y = if x < y then y else x := by
  have hself : Scalar.same x x = true := beq_iff.mpr ⟨hx, hx, rfl⟩
  unfold Scalar.max
  rw [hself, Bool.not_true, Bool.or_false]
  rfl

theorem isNaN_max (hx : x.isNaN = false) : (Scalar.max x y).isNaN = false := by
  rw [max_eq hx]
  split
  case isTrue h => exact (lt_iff.mp h).2.1
  case isFalse => exact hx

/-- A NaN is passed over, and any other number has to respect the bound. -/
theorem max_le_iff {b : Float} (hx : x.isNaN = false) :
    Scalar.max x y ≤ b ↔ x ≤ b ∧ (y.isNaN = true ∨ y ≤ b) := by
  rw [max_eq hx]
  cases hy : y.isNaN with
  | true =>
      have hless : ¬ x < y := by
        intro h
        rw [(lt_iff.mp h).2.1] at hy
        cases hy
      rw [if_neg hless]
      simp only [true_or, and_true]
  | false =>
      simp only [Bool.false_eq_true, false_or]
      split
      case isTrue h => exact ⟨fun hb => ⟨le_trans (le_of_lt h) hb, hb⟩, fun hb => hb.2⟩
      case isFalse h => exact ⟨fun hb => ⟨hb, le_trans (le_of_not_lt hx hy h) hb⟩, fun hb => hb.1⟩

theorem le_max_right (hx : x.isNaN = false) (hy : y.isNaN = false) : y ≤ Scalar.max x y := by
  have hbounds := (max_le_iff hx).mp (le_self (isNaN_max (y := y) hx))
  rw [hy] at hbounds
  exact hbounds.2.resolve_left Bool.false_ne_true

theorem foldl_max_le_iff {b : Float} (ys : List Float) (hx : x.isNaN = false) :
    ys.foldl Scalar.max x ≤ b ↔ x ≤ b ∧ ∀ y ∈ ys, y.isNaN = true ∨ y ≤ b := by
  induction ys generalizing x with
  | nil => simp
  | cons y ys ih =>
      rw [List.foldl_cons, ih (isNaN_max hx), max_le_iff hx, List.forall_mem_cons, and_assoc]

end

/-! ## NaN -/

theorem isNaN_of_isFinite {u : UnpackedFloat} (h : u.isFinite = true) : u.isNaN = false := by
  cases u with
  | infinity | notANumber => cases h
  | zero | finite => rfl

/-- Packing neither makes nor loses a NaN. -/
theorem isNaN_unpack_pack (u : UnpackedFloat) : (pack u).unpack.isNaN = u.isNaN := by
  have hfinite : u.isFinite = true → (pack u).unpack.isNaN = false := by
    intro h
    have hcases := unpack_pack_of_finite h
    generalize (pack u).unpack = v at hcases ⊢
    rcases hcases with hinfinite | hwithin
    · cases v with
      | notANumber => cases hinfinite
      | infinity | zero | finite => rfl
    · cases hwithin <;> rfl
  cases u with
  | notANumber => rfl
  | infinity s =>
      show (UnpackedFloat.unpack .binary64 (packedInfinity .binary64 s)).isNaN = false
      rw [unpack_infinite]
      rfl
  | zero | finite => exact hfinite rfl

theorem isNaN_abs (x : Float) : x.abs.isNaN = x.isNaN := by
  show (pack (UnpackedFloat.abs _)).unpack.isNaN = UnpackedFloat.isNaN _
  rw [isNaN_unpack_pack]
  cases x.toModel.unpack <;> rfl

theorem isFinite_normalize (m e : ℤ) (s : Sign) :
    (UnpackedFloat.normalize .binary64 m e s).isFinite = true := by
  unfold UnpackedFloat.normalize
  cases compare m 0 with
  | eq => rfl
  | lt | gt => exact isFinite_roundWithAccuracy _ _ _ _

/-- Subtracting from a finite number gives NaN for NaN only. -/
theorem isNaN_sub {y : Float} (hy : y.isFinite = true) (p : Float) : (y - p).isNaN = p.isNaN := by
  show (pack (UnpackedFloat.sub .binary64 _ _)).unpack.isNaN = UnpackedFloat.isNaN _
  rw [isNaN_unpack_pack]
  rcases isFinite_cases hy with ⟨s, hy⟩ | ⟨s, m, e, hm, hy⟩
  · rw [hy]
    cases p.toModel.unpack with
    | zero s' => cases s <;> cases s' <;> rfl
    | infinity | notANumber | finite => rfl
  · rw [hy]
    cases p.toModel.unpack with
    | zero | infinity | notANumber => rfl
    | finite s' m' e' hm' => exact isNaN_of_isFinite (isFinite_normalize _ _ _)

/-! ## Signs -/

/-- A number without a minus sign. -/
inductive Unsigned : UnpackedFloat → Prop where
  | infinity : Unsigned (.infinity .positive)
  | zero : Unsigned (.zero .positive)
  | finite {m : ℕ} {e : ℤ} {h : 0 < m} : Unsigned (.finite .positive m e h)

theorem Unsigned.isNaN_eq_false {u : UnpackedFloat} (h : Unsigned u) : u.isNaN = false := by
  cases h <;> rfl

theorem Unsigned.rank_zero_le {u : UnpackedFloat} (h : Unsigned u) :
    rank (.zero .positive) ≤ rank u := by
  cases h with
  | infinity => exact Prod.Lex.toLex_le_toLex.mpr (.inl two_pos)
  | zero => exact le_rfl
  | finite => exact Prod.Lex.toLex_le_toLex.mpr (.inl one_pos)

theorem unsigned_unpack (exponent : BitVec 11) (mantissa : BitVec 52)
    (hnan : (UnpackedFloat.unpack .binary64
      (packComponents .binary64 .positive exponent mantissa)).isNaN = false) :
    Unsigned (UnpackedFloat.unpack .binary64
      (packComponents .binary64 .positive exponent mantissa)) := by
  have hsign : Sign.ofBitVec Sign.positive.toBitVec = .positive := rfl
  unfold UnpackedFloat.unpack at hnan ⊢
  dsimp only at hnan ⊢
  rw [unpackSign_packComponents, hsign] at hnan ⊢
  split_ifs at hnan ⊢
  · exact .infinity
  · cases hnan
  · exact .zero
  · exact .finite
  · exact .finite

theorem Unsigned.exists_pack_eq {u : UnpackedFloat} (h : Unsigned u) :
    ∃ exponent mantissa, UnpackedFloat.pack .binary64 u =
      packComponents .binary64 .positive exponent mantissa := by
  cases h with
  | infinity | zero => exact ⟨_, _, rfl⟩
  | @finite m e hm =>
      rcases pack_cases .positive e hm with ⟨-, hpack⟩ | ⟨-, ⟨-, hpack⟩ | ⟨-, hpack⟩⟩
      · exact ⟨_, _, hpack⟩
      · exact ⟨_, _, hpack⟩
      · exact ⟨_, _, hpack⟩

/-- Packing gives no number a minus sign. -/
theorem Unsigned.unpack_pack {u : UnpackedFloat} (h : Unsigned u) : Unsigned (pack u).unpack := by
  obtain ⟨exponent, mantissa, hpack⟩ := h.exists_pack_eq
  have hunpack : (pack u).unpack = UnpackedFloat.unpack .binary64
      (packComponents .binary64 .positive exponent mantissa) :=
    congrArg (UnpackedFloat.unpack .binary64) hpack
  have hnan : (pack u).unpack.isNaN = false := (isNaN_unpack_pack u).trans h.isNaN_eq_false
  rw [hunpack] at hnan ⊢
  exact unsigned_unpack exponent mantissa hnan

theorem unsigned_roundWithAccuracy (m : ℕ) (e : ℤ) (a : Accuracy) :
    Unsigned (roundWithAccuracy .binary64 .positive m e a) := by
  obtain ⟨drop, carry, rounded, -, hresult⟩ := roundWithAccuracy_cases .positive m e a
  rcases hresult with ⟨-, hresult⟩ | ⟨_, hresult⟩
  · rw [hresult]
    exact .zero
  · rw [hresult]
    exact .finite

theorem place_zero : place 0 = rank (.zero .positive) := by
  decide

theorem zero_le_of_unsigned {x : Float} (h : Unsigned x.toModel.unpack) : 0 ≤ x := by
  refine le_iff.mpr ⟨by decide, h.isNaN_eq_false, ?_⟩
  rw [place_zero]
  exact h.rank_zero_le

theorem pos_cases {x : Float} (h : 0 < x) :
    x.toModel.unpack = .infinity .positive ∨
      ∃ m e hm, x.toModel.unpack = .finite .positive m e hm := by
  obtain ⟨-, -, hplace⟩ := lt_iff.mp h
  rw [place_zero] at hplace
  unfold place at hplace
  cases hx : x.toModel.unpack with
  | notANumber | zero =>
      rw [hx] at hplace
      exact absurd hplace (lt_irrefl _)
  | infinity s =>
      cases s with
      | positive => exact .inl rfl
      | negative =>
          rw [hx] at hplace
          exact absurd hplace (by decide)
  | finite s m e hm =>
      cases s with
      | positive => exact .inr ⟨m, e, hm, rfl⟩
      | negative =>
          rw [hx] at hplace
          have hbelow : rank (.finite .negative m e hm) < rank (.zero .positive) :=
            Prod.Lex.toLex_lt_toLex.mpr (.inl neg_one_lt_zero)
          exact absurd hplace hbelow.asymm

/-- The product of positive numbers is positive or, too small for a double, zero. -/
theorem mul_nonneg_of_pos {x y : Float} (hx : 0 < x) (hy : 0 < y) : 0 ≤ x * y := by
  apply zero_le_of_unsigned
  apply Unsigned.unpack_pack
  rcases pos_cases hx with hx | ⟨m, e, hm, hx⟩
  · rcases pos_cases hy with hy | ⟨m', e', hm', hy⟩
    · rw [hx, hy]
      exact .infinity
    · rw [hx, hy]
      exact .infinity
  · rcases pos_cases hy with hy | ⟨m', e', hm', hy⟩
    · rw [hx, hy]
      exact .infinity
    · rw [hx, hy]
      exact unsigned_roundWithAccuracy (m * m') (e + e') .exact

end GrowthCurve.Binary
