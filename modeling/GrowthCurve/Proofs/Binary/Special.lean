import Mathlib
import GrowthCurve.Proofs.Binary.Arithmetic

/-!
# Infinities, NaN and signs

NaN goes through every operation. An infinity stays one when it is added to or
divided, unless it meets another one. Squares are no negative numbers, and the
sum of two numbers that are not negative is at least as large as either.
-/

namespace GrowthCurve.Binary

open Float.Model UnpackedFloat

variable {x y : Float}

/-! ## Sums in either order -/

theorem unpacked_add_comm (u v : UnpackedFloat) :
    UnpackedFloat.add .binary64 u v = UnpackedFloat.add .binary64 v u := by
  cases u with
  | notANumber => cases v <;> rfl
  | infinity s =>
      cases v with
      | infinity s' => cases s <;> cases s' <;> rfl
      | notANumber | zero | finite => rfl
  | zero s =>
      cases v with
      | zero s' => cases s <;> cases s' <;> rfl
      | notANumber | infinity | finite => rfl
  | finite s m e =>
      cases v with
      | finite s' m' e' =>
          unfold UnpackedFloat.add
          dsimp only
          rw [min_comm e' e, Int.add_comm]
      | notANumber | infinity | zero => rfl

theorem add_swap (x y : Float) : x + y = y + x :=
  congrArg (fun u => Float.ofModel (Float.Model.pack u)) (unpacked_add_comm _ _)

/-! ## NaN -/

theorem unpack_of_isNaN (h : x.isNaN = true) : x.toModel.unpack = .notANumber :=
  UnpackedFloat.isNaN_iff.mp h

theorem isNaN_add_left (h : x.isNaN = true) (y : Float) : (x + y).isNaN = true := by
  refine (isNaN_unpack_pack _).trans ?_
  rw [unpack_of_isNaN h]
  rfl

theorem isNaN_add_right (x : Float) (h : y.isNaN = true) : (x + y).isNaN = true := by
  rw [add_swap]
  exact isNaN_add_left h x

theorem isNaN_sub_left (h : x.isNaN = true) (y : Float) : (x - y).isNaN = true := by
  refine (isNaN_unpack_pack _).trans ?_
  rw [unpack_of_isNaN h]
  rfl

theorem isNaN_sub_right (x : Float) (h : y.isNaN = true) : (x - y).isNaN = true := by
  refine (isNaN_unpack_pack _).trans ?_
  rw [unpack_of_isNaN h]
  cases x.toModel.unpack <;> rfl

theorem isNaN_mul_left (h : x.isNaN = true) (y : Float) : (x * y).isNaN = true := by
  refine (isNaN_unpack_pack _).trans ?_
  rw [unpack_of_isNaN h]
  rfl

theorem isNaN_div_left (h : x.isNaN = true) (y : Float) : (x / y).isNaN = true := by
  refine (isNaN_unpack_pack _).trans ?_
  rw [unpack_of_isNaN h]
  rfl

theorem isNaN_div_right (x : Float) (h : y.isNaN = true) : (x / y).isNaN = true := by
  refine (isNaN_unpack_pack _).trans ?_
  rw [unpack_of_isNaN h]
  cases x.toModel.unpack <;> rfl

theorem isFinite_of_not_isNaN (h : x.isNaN = false) :
    x.isFinite = true ∨ ∃ s, x.toModel.unpack = .infinity s := by
  have h : x.toModel.unpack.isNaN = false := h
  show x.toModel.unpack.isFinite = true ∨ _
  cases hx : x.toModel.unpack with
  | infinity s => exact .inr ⟨s, rfl⟩
  | zero | finite => exact .inl rfl
  | notANumber =>
      rw [hx] at h
      cases h

theorem isNaN_of_finite (h : x.isFinite = true) : x.isNaN = false :=
  isNaN_of_isFinite h

theorem isFinite_of_isNaN (h : x.isNaN = true) : x.isFinite = false := by
  by_contra hfinite
  rw [isNaN_of_finite (by simpa using hfinite)] at h
  cases h

theorem isFinite_of_infinite {s : Sign} (h : x.toModel.unpack = .infinity s) :
    x.isFinite = false := by
  show x.toModel.unpack.isFinite = false
  rw [h]
  rfl

theorem isNaN_of_infinite {s : Sign} (h : x.toModel.unpack = .infinity s) : x.isNaN = false := by
  show x.toModel.unpack.isNaN = false
  rw [h]
  rfl

/-! ## Infinities -/

section Infinities

variable {s : Sign}

theorem eq_of_unpack_eq (h : x.toModel.unpack = y.toModel.unpack) : x = y := by
  have hmodel : x.toModel = y.toModel := by
    rw [← pack_unpack_model x.toModel, h, pack_unpack_model]
  cases x
  cases y
  exact congrArg Float.ofModel hmodel

theorem unpack_pack_infinity (s : Sign) :
    (Float.Model.pack (.infinity s)).unpack = .infinity s :=
  unpack_infinite s

/-- An infinity absorbs everything but the opposite one. -/
theorem infinite_add (h : x.toModel.unpack = .infinity s) (y : Float) :
    (x + y).isNaN = true ∨ (x + y).toModel.unpack = .infinity s := by
  have hsum : (x + y).toModel.unpack = (Float.Model.pack
      (UnpackedFloat.add .binary64 (.infinity s) y.toModel.unpack)).unpack := by
    rw [← h]
    rfl
  show (x + y).toModel.unpack.isNaN = true ∨ _
  rw [hsum, isNaN_unpack_pack]
  cases y.toModel.unpack with
  | notANumber => exact .inl rfl
  | zero | finite => exact .inr (unpack_pack_infinity s)
  | infinity s' =>
      cases s <;> cases s'
      case negative.positive | positive.negative => exact .inl rfl
      case negative.negative | positive.positive => exact .inr (unpack_pack_infinity _)

theorem infinite_add_of_isFinite (h : x.toModel.unpack = .infinity s) (hy : y.isFinite = true) :
    (x + y).toModel.unpack = .infinity s := by
  show (Float.Model.pack (UnpackedFloat.add .binary64 _ _)).unpack = _
  rw [h]
  rcases isFinite_cases hy with ⟨s', hy⟩ | ⟨s', m, e, hm, hy⟩
  · rw [hy]
    exact unpack_pack_infinity s
  · rw [hy]
    exact unpack_pack_infinity s

theorem add_infinite (x : Float) (h : y.toModel.unpack = .infinity s) :
    (x + y).isNaN = true ∨ (x + y).toModel.unpack = .infinity s := by
  rw [add_swap]
  exact infinite_add h x

theorem add_infinite_of_isFinite (hx : x.isFinite = true) (h : y.toModel.unpack = .infinity s) :
    (x + y).toModel.unpack = .infinity s := by
  rw [add_swap]
  exact infinite_add_of_isFinite h hx

/-- An infinity minus itself is no number. -/
theorem infinite_sub_infinite (hx : x.toModel.unpack = .infinity s)
    (hy : y.toModel.unpack = .infinity s) : (x - y).isNaN = true := by
  refine (isNaN_unpack_pack _).trans ?_
  rw [hx, hy]
  cases s <;> rfl

theorem sub_infinite_of_isFinite (hx : x.isFinite = true) (hy : y.toModel.unpack = .infinity s) :
    (x - y).toModel.unpack = .infinity (-s) := by
  show (Float.Model.pack (UnpackedFloat.sub .binary64 _ _)).unpack = _
  rw [hy]
  rcases isFinite_cases hx with ⟨s', hx⟩ | ⟨s', m, e, hm, hx⟩
  · rw [hx]
    exact unpack_pack_infinity (-s)
  · rw [hx]
    exact unpack_pack_infinity (-s)

/-- An infinite number loses nothing that is finite. -/
theorem infinite_sub_of_isFinite (hx : x.toModel.unpack = .infinity s) (hy : y.isFinite = true) :
    x - y = x := by
  apply eq_of_unpack_eq
  rw [hx]
  show (Float.Model.pack (UnpackedFloat.sub .binary64 _ _)).unpack = _
  rcases isFinite_cases hy with ⟨s', hy⟩ | ⟨s', m, e, hm, hy⟩
  · rw [hx, hy]
    exact unpack_pack_infinity s
  · rw [hx, hy]
    exact unpack_pack_infinity s

theorem infinite_mul_self (h : x.toModel.unpack = .infinity s) :
    (x * x).toModel.unpack = .infinity .positive := by
  show (Float.Model.pack (UnpackedFloat.mul .binary64 _ _)).unpack = _
  rw [h]
  cases s <;> exact unpack_pack_infinity _

end Infinities

/-! ## Numbers that are not negative -/

theorem value_zero : value 0 = 0 := by
  have hzero : ofFloat? 0 = some ⟨false, 0, 0⟩ := by decide
  rw [value_of_ofFloat? hzero]
  simp

theorem nonneg_iff_value (hx : x.isFinite = true) : 0 ≤ x ↔ 0 ≤ value x := by
  rw [le_iff_value (by decide) hx, value_zero]

theorem pos_iff_value (hx : x.isFinite = true) : 0 < x ↔ 0 < value x := by
  rw [lt_iff_value (by decide) hx, value_zero]

theorem isNaN_of_nonneg (h : 0 ≤ x) : x.isNaN = false :=
  (le_iff.mp h).2.1

theorem lt_infinite (hx : x.isFinite = true) (hy : y.toModel.unpack = .infinity .positive) :
    x < y := by
  have hrank := (isFinite_eq_rank (isNaN_of_finite hx)).symm.trans hx
  obtain ⟨-, hsmall⟩ := abs_lt.mp (of_decide_eq_true hrank)
  refine lt_iff.mpr ⟨isNaN_of_finite hx, isNaN_of_infinite hy, ?_⟩
  unfold place
  rw [hy]
  exact Prod.Lex.lt_iff.mpr (.inl hsmall)

theorem infinite_lt (hx : x.toModel.unpack = .infinity .negative) (hy : y.isFinite = true) :
    x < y := by
  have hrank := (isFinite_eq_rank (isNaN_of_finite hy)).symm.trans hy
  obtain ⟨hlarge, -⟩ := abs_lt.mp (of_decide_eq_true hrank)
  refine lt_iff.mpr ⟨isNaN_of_infinite hx, isNaN_of_finite hy, ?_⟩
  unfold place
  rw [hx]
  exact Prod.Lex.lt_iff.mpr (.inl hlarge)

theorem infinite_pos (h : x.toModel.unpack = .infinity .positive) : 0 < x :=
  lt_infinite (by decide) h

theorem nonneg_cases (h : 0 ≤ x) :
    x.toModel.unpack = .infinity .positive ∨ x.isFinite = true ∧ 0 ≤ value x := by
  rcases isFinite_of_not_isNaN (isNaN_of_nonneg h) with hfinite | ⟨s, hinfinite⟩
  · exact .inr ⟨hfinite, (nonneg_iff_value hfinite).mp h⟩
  · cases s with
    | positive => exact .inl hinfinite
    | negative =>
        obtain ⟨-, -, hplace⟩ := le_iff.mp h
        rw [place_zero] at hplace
        unfold place at hplace
        rw [hinfinite] at hplace
        exact absurd hplace (by decide)

theorem pos_iff_not_zero (h : 0 ≤ x) : 0 < x ↔ ¬ (x.isFinite = true ∧ value x = 0) := by
  rcases nonneg_cases h with hinfinite | ⟨hfinite, hvalue⟩
  · refine iff_of_true (infinite_pos hinfinite) ?_
    rw [isFinite_of_infinite hinfinite]
    exact fun hzero => Bool.false_ne_true hzero.1
  · rw [pos_iff_value hfinite, lt_iff_le_and_ne, and_iff_right hvalue]
    simp [hfinite, eq_comm]

theorem not_lt_of_le (h : x ≤ y) : ¬ y < x := by
  intro hlt
  exact (le_iff.mp h).2.2.not_gt (lt_iff.mp hlt).2.2

theorem le_infinite (hx : x.isNaN = false) (hy : y.toModel.unpack = .infinity .positive) :
    x ≤ y := by
  refine le_iff.mpr ⟨hx, isNaN_of_infinite hy, ?_⟩
  have hx : x.toModel.unpack.isNaN = false := hx
  unfold place
  rw [hy]
  cases hunpack : x.toModel.unpack with
  | zero => exact Prod.Lex.toLex_le_toLex.mpr (.inl two_pos)
  | notANumber =>
      rw [hunpack] at hx
      cases hx
  | infinity s =>
      cases s with
      | negative => exact Prod.Lex.toLex_le_toLex.mpr (.inl (by decide))
      | positive => exact le_rfl
  | finite s =>
      cases s with
      | negative => exact Prod.Lex.toLex_le_toLex.mpr (.inl (show (-1 : ℤ) < 2 by decide))
      | positive => exact Prod.Lex.toLex_le_toLex.mpr (.inl one_lt_two)

theorem RoundsTo.nonneg {v : ℚ} (h : RoundsTo v x) (hv : 0 ≤ v) : 0 ≤ x := by
  have hzero : RoundsTo (value 0) 0 := roundsTo_value (by decide)
  rw [value_zero] at hzero
  exact hzero.le h hv

/-- A sum of numbers that are not negative is at least as large as either. -/
theorem le_add_of (hx : 0 ≤ x) (hy : 0 ≤ y) : x ≤ x + y ∧ y ≤ x + y := by
  have hinfinite : (x + y).toModel.unpack = .infinity .positive → x ≤ x + y ∧ y ≤ x + y :=
    fun h => ⟨le_infinite (isNaN_of_nonneg hx) h, le_infinite (isNaN_of_nonneg hy) h⟩
  rcases nonneg_cases hx with hx' | ⟨hx', hvalue⟩
  · rcases nonneg_cases hy with hy' | ⟨hy', -⟩
    · apply hinfinite
      show (Float.Model.pack (UnpackedFloat.add .binary64 _ _)).unpack = _
      rw [hx', hy']
      exact unpack_pack_infinity .positive
    · exact hinfinite (infinite_add_of_isFinite hx' hy')
  · rcases nonneg_cases hy with hy' | ⟨hy', hvalue'⟩
    · exact hinfinite (add_infinite_of_isFinite hx' hy')
    · have hsum := roundsTo_add hx' hy'
      exact ⟨(roundsTo_value hx').le hsum (by linarith), (roundsTo_value hy').le hsum (by linarith)⟩

theorem nonneg_add (hx : 0 ≤ x) (hy : 0 ≤ y) : 0 ≤ x + y :=
  le_trans hx (le_add_of hx hy).1

theorem pos_add_iff (hx : 0 ≤ x) (hy : 0 ≤ y) : 0 < x + y ↔ 0 < x ∨ 0 < y := by
  obtain ⟨hleft, hright⟩ := le_add_of hx hy
  constructor
  · intro hpos
    by_contra hneither
    rw [not_or, pos_iff_not_zero hx, pos_iff_not_zero hy, not_not, not_not] at hneither
    obtain ⟨⟨hx', hvalue⟩, hy', hvalue'⟩ := hneither
    have hsum := roundsTo_add hx' hy'
    have hzero : RoundsTo (value 0) 0 := roundsTo_value (by decide)
    rw [hvalue, hvalue', add_zero] at hsum
    rw [value_zero] at hzero
    exact not_lt_of_le (hsum.le hzero le_rfl) hpos
  · rintro (hpos | hpos)
    · exact lt_of_lt_of_le hpos hleft
    · exact lt_of_lt_of_le hpos hright

/-- An infinity stays one when it is divided, unless by another infinity. -/
theorem infinite_div_infinite {s s' : Sign} (hx : x.toModel.unpack = .infinity s)
    (hy : y.toModel.unpack = .infinity s') : (x / y).isNaN = true := by
  refine (isNaN_unpack_pack _).trans ?_
  rw [hx, hy]
  rfl

theorem infinite_div {s : Sign} (hx : x.toModel.unpack = .infinity s) (hy : 0 < y) :
    y.isFinite = false ∧ (x / y).isNaN = true ∨ (x / y).toModel.unpack = .infinity s := by
  rcases pos_cases hy with hy | ⟨m, e, hm, hy⟩
  · exact .inl ⟨isFinite_of_infinite hy, infinite_div_infinite hx hy⟩
  · right
    show (Float.Model.pack (UnpackedFloat.div .binary64 _ _)).unpack = _
    rw [hx, hy]
    cases s <;> exact unpack_pack_infinity _

theorem div_infinite_of_isFinite {s : Sign} (hx : x.isFinite = true)
    (hy : y.toModel.unpack = .infinity s) :
    ∃ s', (x / y).toModel.unpack = .zero s' := by
  show ∃ s', (Float.Model.pack (UnpackedFloat.div .binary64 _ _)).unpack = .zero s'
  rcases isFinite_cases hx with ⟨s', hx⟩ | ⟨s', m, e, hm, hx⟩
  · rw [hx, hy]
    exact ⟨_, unpack_packedZero⟩
  · rw [hx, hy]
    exact ⟨_, unpack_packedZero⟩

/-- The square of a number is not negative. -/
theorem square_nonneg (h : x.isNaN = false) : 0 ≤ x * x := by
  rcases isFinite_of_not_isNaN h with hfinite | ⟨s, hinfinite⟩
  · exact (roundsTo_mul hfinite hfinite).nonneg (mul_self_nonneg _)
  · exact le_of_lt (infinite_pos (infinite_mul_self hinfinite))

end GrowthCurve.Binary
