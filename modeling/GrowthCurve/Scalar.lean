import GrowthCurve.Binary

/-!
# Numbers

Fits, scores, axes and dashes are written once, over any type with the
operations below. The program computes with `Float`; the same definitions over
an exact field are the mathematics that the computation approximates.
-/

namespace GrowthCurve

/-- The arithmetic that fits and figures are made of. Comparisons are tests and
not propositions, since NaN compares false with everything. -/
class Scalar (α : Type) where
  [toAdd : Add α]
  [toSub : Sub α]
  [toMul : Mul α]
  [toDiv : Div α]
  [toNeg : Neg α]
  [toOfScientific : OfScientific α]
  ofNat : Nat → α
  less : α → α → Bool
  atMost : α → α → Bool
  same : α → α → Bool
  magnitude : α → α
  isFinite : α → Bool
  length : α → α → α
  /-- A total order that puts equal numbers side by side. -/
  precedes : α → α → Bool

namespace Scalar

variable {α : Type} [Scalar α]

/-! A type that brings its own operations is read with those first. -/

instance (priority := low) : Add α := toAdd
instance (priority := low) : Sub α := toSub
instance (priority := low) : Mul α := toMul
instance (priority := low) : Div α := toDiv
instance (priority := low) : Neg α := toNeg
instance (priority := low) : OfScientific α := toOfScientific

/-- The greater of two numbers; a NaN yields to the other one. -/
def max (a b : α) : α :=
  if less a b || !same a a then b else a

/-- The lesser of two numbers; a NaN yields to the other one. -/
def min (a b : α) : α :=
  if less b a || !same a a then b else a

/-- The sum of a list from left to right. It starts at `-0`, the one number
that leaves every first term unchanged. -/
def sum (xs : List α) : α :=
  xs.foldl (· + ·) (-(ofNat 0))

/-- `x ^ k` by repeated multiplication. -/
def power (x : α) : Nat → α
  | 0 => ofNat 1
  | k + 1 => power x k * x

end Scalar

/-- Bits of a double as a key whose order is the order of the numbers, with
`-0` just below `0` and NaN above everything. -/
def orderKey (x : Float) : UInt64 :=
  let b := x.toBits
  if b &&& 0x8000000000000000 = 0 then b ||| 0x8000000000000000 else ~~~b

instance : Scalar Float where
  ofNat := Float.ofNat
  less := Float.lt
  atMost := Float.le
  same := Float.beq
  magnitude := Float.abs
  isFinite := Float.isFinite
  length := euclideanLength
  precedes a b := orderKey a ≤ orderKey b

end GrowthCurve
