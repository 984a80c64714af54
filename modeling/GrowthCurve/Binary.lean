/-!
# Exact values of floating-point numbers

A finite double is `± mantissa · 2 ^ exponent`. Text, pixels and Euclidean
lengths are decided on these exact integers, so that nothing depends on an
intermediate rounding.
-/

namespace GrowthCurve

/-- A finite number, exactly. Zero has mantissa `0` and keeps its sign. -/
structure Binary where
  negative : Bool
  mantissa : Nat
  exponent : Int
deriving Repr, DecidableEq

namespace Binary

open Float.Model

private def isNegative : UnpackedFloat.Sign → Bool
  | .positive => false
  | .negative => true

/-- The exact value of a double, or nothing for NaN and the infinities. -/
def ofFloat? (x : Float) : Option Binary :=
  match x.toModel.unpack with
  | .finite s m e _ => some ⟨isNegative s, m, e⟩
  | .zero s => some ⟨isNegative s, 0, 0⟩
  | .infinity _ | .notANumber => none

/-- The double nearest to `± mantissa · 2 ^ exponent`, ties to even. -/
def toFloat (b : Binary) : Float :=
  let s : UnpackedFloat.Sign := if b.negative then .negative else .positive
  if b.mantissa = 0 then Float.ofModel (pack (.zero s))
  else Float.ofModel (pack (UnpackedFloat.round .binary64 s b.mantissa b.exponent))

/-- The value as an integer numerator over a power of two. -/
def fraction (b : Binary) : Int × Nat :=
  let m : Int := if b.negative then -(b.mantissa : Int) else b.mantissa
  (m * Nat.pow 2 b.exponent.toNat, Nat.pow 2 (-b.exponent).toNat)

def floor (b : Binary) : Int :=
  b.fraction.1.fdiv b.fraction.2

def ceil (b : Binary) : Int :=
  -((-b.fraction.1).fdiv b.fraction.2)

/-- The integer nearest to the magnitude, a half going up. -/
def roundMagnitude (b : Binary) : Nat :=
  let d := Nat.pow 2 (-b.exponent).toNat
  (2 * (b.mantissa * Nat.pow 2 b.exponent.toNat) + d) / (2 * d)

/-- The nearest integer, a half going away from zero. -/
def round (b : Binary) : Binary :=
  ⟨b.negative, b.roundMagnitude, 0⟩

def square (b : Binary) : Binary :=
  ⟨false, b.mantissa * b.mantissa, 2 * b.exponent⟩

/-- The sum of two non-negative numbers, exactly. -/
def addMagnitudes (a b : Binary) : Binary :=
  let e := min a.exponent b.exponent
  ⟨false, a.mantissa * Nat.pow 2 (a.exponent - e).toNat +
    b.mantissa * Nat.pow 2 (b.exponent - e).toNat, e⟩

/-- The double nearest to the square root of a non-negative number. -/
def sqrt (b : Binary) : Float :=
  if h : 0 < b.mantissa then
    Float.ofModel (pack (UnpackedFloat.sqrt .binary64 (.finite .positive b.mantissa b.exponent h)))
  else 0

end Binary

/-- A double rounded to an integer, a half going away from zero. -/
def roundHalfAway (x : Float) : Float :=
  match Binary.ofFloat? x with
  | some b => b.round.toFloat
  | none => x

/-- The Euclidean length of `(x, y)`, rounded once. An infinite side makes the
length infinite, also beside NaN. -/
def euclideanLength (x y : Float) : Float :=
  match Binary.ofFloat? x, Binary.ofFloat? y with
  | some a, some b => (a.square.addMagnitudes b.square).sqrt
  | _, _ => if x.isInf || y.isInf then 1.0 / 0.0 else 0.0 / 0.0

end GrowthCurve
