import Mathlib
import GrowthCurve.Proofs.Exact

/-!
# Exact numbers beside values that are no numbers

Samples may hold infinities and NaN. Here they stand beside the numbers of an
exact field, with the arithmetic and the comparisons that floating point gives
them; finite numbers are computed with exactly, and a zero has no sign.
-/

namespace GrowthCurve

inductive Extended (K : Type) where
  | finite (a : K)
  | infinite (negative : Bool)
  | nan

namespace Extended

variable {K : Type} [Field K]

/-! ## Arithmetic -/

def neg : Extended K → Extended K
  | finite a => finite (-a)
  | infinite negative => infinite !negative
  | nan => nan

def add : Extended K → Extended K → Extended K
  | finite a, finite b => finite (a + b)
  | infinite s, finite _ => infinite s
  | finite _, infinite t => infinite t
  | infinite s, infinite t => if s = t then infinite s else nan
  | nan, _ => nan
  | _, nan => nan

instance : Neg (Extended K) := ⟨neg⟩

instance : Add (Extended K) := ⟨add⟩

instance : Sub (Extended K) := ⟨fun a b => a + -b⟩

instance : OfScientific (Extended K) :=
  ⟨fun mantissa negative exponent => finite (OfScientific.ofScientific mantissa negative exponent)⟩

@[simp] theorem finite_add (a b : K) : finite a + finite b = finite (a + b) := rfl

@[simp] theorem finite_sub (a b : K) : finite a - finite b = finite (a - b) :=
  congrArg finite (sub_eq_add_neg a b).symm

variable [LinearOrder K]

def mul : Extended K → Extended K → Extended K
  | finite a, finite b => finite (a * b)
  | infinite s, finite b => if b = 0 then nan else infinite (s ^^ decide (b < 0))
  | finite a, infinite t => if a = 0 then nan else infinite (decide (a < 0) ^^ t)
  | infinite s, infinite t => infinite (s ^^ t)
  | nan, _ => nan
  | _, nan => nan

def div : Extended K → Extended K → Extended K
  | finite a, finite b =>
    if b ≠ 0 then finite (a / b) else if a = 0 then nan else infinite (decide (a < 0))
  | infinite s, finite b => infinite (s ^^ decide (b < 0))
  | finite _, infinite _ => finite 0
  | infinite _, infinite _ => nan
  | nan, _ => nan
  | _, nan => nan

instance : Mul (Extended K) := ⟨mul⟩

instance : Div (Extended K) := ⟨div⟩

/-! ## Comparisons -/

/-- Every comparison with a NaN fails. -/
def less : Extended K → Extended K → Bool
  | finite a, finite b => decide (a < b)
  | infinite s, finite _ => s
  | finite _, infinite t => !t
  | infinite s, infinite t => s && !t
  | nan, _ => false
  | _, nan => false

def same : Extended K → Extended K → Bool
  | finite a, finite b => decide (a = b)
  | infinite s, infinite t => s == t
  | _, _ => false

def magnitude : Extended K → Extended K
  | finite a => finite |a|
  | infinite _ => infinite false
  | nan => nan

def isFinite : Extended K → Bool
  | finite _ => true
  | _ => false

/-- An infinite side is an infinite length, whatever the other side is. -/
noncomputable def length : Extended K → Extended K → Extended K
  | finite a, finite b => finite (Exact.root (a * a + b * b))
  | infinite _, _ => infinite false
  | _, infinite _ => infinite false
  | nan, _ => nan
  | _, nan => nan

/-- NaN comes after all numbers. -/
def precedes : Extended K → Extended K → Bool
  | _, nan => true
  | nan, _ => false
  | a, b => less a b || same a b

noncomputable instance : Scalar (Extended K) where
  ofNat n := finite (n : K)
  less := less
  atMost a b := less a b || same a b
  same := same
  magnitude := magnitude
  isFinite := isFinite
  length := length
  precedes := precedes

/-! ## Finite numbers -/

variable (a b : K)

@[simp] theorem finite_mul : finite a * finite b = finite (a * b) := rfl

theorem finite_div {b : K} (h : b ≠ 0) : finite a / finite b = finite (a / b) :=
  if_pos h

@[simp] theorem finite_ofNat (n : ℕ) : (Scalar.ofNat n : Extended K) = finite (n : K) := rfl

@[simp] theorem less_finite : Scalar.less (finite a) (finite b) = decide (a < b) := rfl

@[simp] theorem same_finite : Scalar.same (finite a) (finite b) = decide (a = b) := rfl

@[simp] theorem magnitude_finite : Scalar.magnitude (finite a) = finite |a| := rfl

@[simp] theorem isFinite_finite : Scalar.isFinite (finite a) = true := rfl

open scoped Exact in
@[simp] theorem length_finite :
    Scalar.length (finite a) (finite b) = finite (Scalar.length a b) := rfl

open scoped Exact in
@[simp] theorem max_finite : Scalar.max (finite a) (finite b) = finite (max a b) := by
  rw [← Exact.max_eq]
  exact (apply_ite finite _ b a).symm

open scoped Exact in
@[simp] theorem min_finite : Scalar.min (finite a) (finite b) = finite (min a b) := by
  rw [← Exact.min_eq]
  exact (apply_ite finite _ b a).symm

end Extended

end GrowthCurve
