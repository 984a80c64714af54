import GrowthCurve.Decimal.Shortest

/-!
# Texts of numbers

How chosen digits are laid out: positionally or with an exponent, with the
fewest digits or with a fixed number of them. The exact value is rounded once,
a half going to the even neighbour.
-/

namespace GrowthCurve.Decimal

/-- Writes `digits · 10 ^ exponent` without an exponent. -/
def Digits.positional (d : Digits) : String :=
  let text := toString d.digits
  if 0 ≤ d.exponent then text ++ String.ofList (List.replicate d.exponent.toNat '0')
  else
    let places := (-d.exponent).toNat
    let padded := List.replicate (places + 1 - text.length) '0' ++ text.toList
    let whole := padded.length - places
    String.ofList (padded.take whole ++ '.' :: padded.drop whole)

/-- Puts a point after the first digit of a text. -/
def afterFirst (digits : String) : String :=
  match digits.toList with
  | [] => ""
  | [c] => String.singleton c
  | c :: rest => String.ofList (c :: '.' :: rest)

def Digits.leading (d : Digits) : Int :=
  d.exponent + ((toString d.digits).length : Int) - 1

def signed (negative : Bool) (text : String) : String :=
  if negative then "-" ++ text else text

/-- The texts of the numbers that have no digits. -/
def special (x : Float) : String :=
  if x.isNaN then "NaN" else if x < 0 then "-inf" else "inf"

/-- The fewest digits that read back, never with an exponent; whole numbers
have no point. Of two equally near candidates the greater is taken. -/
def plain (x : Float) : String :=
  match Binary.ofFloat? x with
  | none => special x
  | some b => signed b.negative (shortest .up b.mantissa b.exponent).positional

/-- Exactly `places` digits after the point. -/
def fixed (places : Nat) (x : Float) : String :=
  match Binary.ofFloat? x with
  | none => special x
  | some b =>
    let (num, den) := scaledFraction b.mantissa b.exponent places
    signed b.negative (Digits.positional ⟨roundDiv num den .toEven, -(places : Int)⟩)

/-- The digits of `m · 2 ^ e` rounded to `count` significant ones, and the
exponent of the first. -/
def significant (count : Nat) (m : Nat) (e : Int) : Nat × Int :=
  if m = 0 then (0, 0)
  else
    let lead := decimalExponent m e - 1
    let (num, den) := scaledFraction m e ((count : Int) - 1 - lead)
    let n := roundDiv num den .toEven
    if n = Nat.pow 10 count then (Nat.pow 10 (count - 1), lead + 1) else (n, lead)

/-- One digit before the point, `places` after it, and an exponent. -/
def scientific (places : Nat) (x : Float) : String :=
  match Binary.ofFloat? x with
  | none => special x
  | some b =>
    let (n, lead) := significant (places + 1) b.mantissa b.exponent
    let digits := toString n
    let padded := String.ofList (List.replicate (places + 1 - digits.length) '0') ++ digits
    signed b.negative (afterFirst padded ++ "e" ++ toString lead)

end GrowthCurve.Decimal
