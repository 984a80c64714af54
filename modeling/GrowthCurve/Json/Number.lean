import GrowthCurve.Document.Basic
import GrowthCurve.Decimal.Reading
import GrowthCurve.Decimal.Shortest
import GrowthCurve.Decimal.Layout

/-!
# Numbers in JSON

Written numbers have the fewest digits that read back, and always a point or an
exponent if they are reals. Whole numbers of 64 bits are read exactly. Any other
number is read as a 64-bit significand times a power of ten, each rounded once.
-/

namespace GrowthCurve.Json

open Decimal

/-! ## Writing -/

/-- Reals from `1e-5` to below `1e16` are written without an exponent. -/
def writeMagnitude (d : Digits) : String :=
  let lead := d.leading
  if -5 ≤ lead ∧ lead ≤ 15 then
    if 0 ≤ d.exponent then d.positional ++ ".0" else d.positional
  else
    afterFirst (toString d.digits) ++ (if lead < 0 then "e-" else "e+") ++ toString lead.natAbs

/-- A real; what is no number or infinite is written as nothing. -/
def writeReal (x : Float) : String :=
  match Binary.ofFloat? x with
  | none => "null"
  | some b => signed b.negative (writeMagnitude (shortest .toEven b.mantissa b.exponent))

/-! ## Reading -/

/-- The parts of a number: its whole digits, the digits after a point, and an
exponent with its sign. -/
structure NumberParts where
  negative : Bool
  whole : List Char
  places : Option (List Char)
  exponent : Option (Bool × List Char)
deriving Repr

def missingDigit (rest : List Char) : Fault :=
  if rest.isEmpty then .unfinished else .malformed

def takeDigits (cs : List Char) : Except Fault (List Char × List Char) :=
  let digits := cs.takeWhile isDigit
  let rest := cs.dropWhile isDigit
  if digits.isEmpty then .error (missingDigit rest) else .ok (digits, rest)

/-- Whole digits, without needless zeros in front. -/
def takeWhole (cs : List Char) : Except Fault (List Char × List Char) := do
  let (digits, rest) ← takeDigits cs
  if digits.head? = some '0' && 1 < digits.length then throw .malformed
  return (digits, rest)

/-- The digits after a point, if there is a point. -/
def takePlaces : List Char → Except Fault (Option (List Char) × List Char)
  | '.' :: cs => do
    let (digits, rest) ← takeDigits cs
    return (some digits, rest)
  | cs => .ok (none, cs)

def takeExponent : List Char → Except Fault (Option (Bool × List Char) × List Char)
  | 'e' :: cs | 'E' :: cs => do
    let (negative, cs) := match cs with
      | '-' :: cs => (true, cs)
      | '+' :: cs => (false, cs)
      | cs => (false, cs)
    let (digits, rest) ← takeDigits cs
    return (some (negative, digits), rest)
  | cs => .ok (none, cs)

def takeNumber (cs : List Char) : Except Fault (NumberParts × List Char) := do
  let (negative, cs) := match cs with
    | '-' :: cs => (true, cs)
    | cs => (false, cs)
  let (whole, cs) ← takeWhole cs
  let (places, cs) ← takePlaces cs
  let (exponent, cs) ← takeExponent cs
  return (⟨negative, whole, places, exponent⟩, cs)

/-- Adds digits to a significand as long as it fits into 64 bits, and counts
the digits that did not go in. -/
def absorb : Nat → List Char → Nat × Nat
  | m, [] => (m, 0)
  | m, c :: cs =>
    let next := m * 10 + (digit? c).getD 0
    if next < UInt64.size then absorb next cs else (m, cs.length + 1)

/-- A power of ten, the nearest double. -/
def powerOfTen (n : Nat) : Float :=
  ofDecimal 1 n

/-- A significand times a power of ten, or `none` beyond all doubles. Each
factor is rounded by itself. -/
def scale? (m : Nat) (exponent : Int) : Option Float :=
  let f := Float.ofNat m
  if 0 ≤ exponent then
    if exponent ≤ 308 then
      let x := f * powerOfTen exponent.toNat
      if x.isInf then none else some x
    else if m = 0 then some 0 else none
  else if -308 ≤ exponent then some (f / powerOfTen exponent.natAbs)
  else if -616 ≤ exponent then some (f / powerOfTen 308 / powerOfTen (exponent.natAbs - 308))
  else some 0

namespace NumberParts

/-- The significand and the power of ten that belongs to it. -/
def significand (p : NumberParts) : Nat × Int :=
  let (m, dropped) := absorb 0 p.whole
  let places := p.places.getD []
  let (m, unused) := absorb m places
  (m, (dropped : Int) - ((places.length : Int) - (unused : Int)))

/-- The magnitude, or `none` beyond all doubles. Exponents are held in 32 bits;
a greater one leaves nothing of the number or does not fit. -/
def magnitude? (p : NumberParts) : Option Float :=
  let (m, e) := p.significand
  match p.exponent with
  | none => scale? m e
  | some (negative, digits) =>
    let n := natOfDigits digits
    if n < Nat.pow 2 31 then scale? m (if negative then e - n else e + n)
    else if m = 0 || negative then some 0
    else none

/-- The real that a number stands for. -/
def real? (p : NumberParts) : Option Float :=
  p.magnitude?.map fun x => if p.negative then -x else x

/-- The whole number that is given exactly: one of 64 bits, with or without
sign. Minus zero is left to the reals. -/
def integer? (p : NumberParts) : Option Int :=
  if p.places.isNone && p.exponent.isNone then
    let n := natOfDigits p.whole
    if p.negative then
      if 0 < n ∧ n ≤ Nat.pow 2 63 then some (-(n : Int)) else none
    else if n < UInt64.size then some (n : Int)
    else none
  else none

def document (p : NumberParts) : Document :=
  match p.integer? with
  | some n => .integer n
  | none =>
    match p.real? with
    | some x => .real x
    | none => .broken .malformed none

end NumberParts

/-- Reads a number. Passed over, a number that ends too early is malformed. -/
def readNumber (cs : List Char) : Document × Option (List Char) :=
  match takeNumber cs with
  | .ok (parts, rest) => (parts.document, some rest)
  | .error fault => (.broken fault (some .malformed), none)

end GrowthCurve.Json
