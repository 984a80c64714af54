import GrowthCurve.Document.Basic
import GrowthCurve.Toml.Text
import GrowthCurve.Decimal.Reading

/-!
# Numbers and date-times in TOML

Whole numbers have 64 bits and a sign, in base ten, sixteen, eight or two.
Underscores may stand between digits.
-/

namespace GrowthCurve.Toml

open Text

/-! ## Digits -/

/-- Further digits, each with or without an underscore before it. -/
def moreDigits (isDigit : Char → Bool) : Reader (List Char)
  | [] => some ([], [])
  | ['_'] => none
  | '_' :: c :: rest =>
    if isDigit c then (moreDigits isDigit rest).map fun r => (c :: r.1, r.2) else none
  | c :: rest =>
    if isDigit c then (moreDigits isDigit rest).map fun r => (c :: r.1, r.2)
    else some ([], c :: rest)

def takeDigits (isDigit : Char → Bool) : Reader (List Char)
  | [] => none
  | c :: rest =>
    if isDigit c then (moreDigits isDigit rest).map fun r => (c :: r.1, r.2) else none

def takeDecimals : Reader (List Char) :=
  takeDigits (isDigitOf 10)

/-- Whole digits of which only a lone one is zero. -/
def takeWhole : Reader (List Char)
  | '0' :: rest => some (['0'], rest)
  | cs => takeDecimals cs

/-- Takes a sign: whether it is there, and whether it is minus. -/
def takeSign : List Char → (Bool × Bool) × List Char
  | '-' :: rest => ((true, true), rest)
  | '+' :: rest => ((true, false), rest)
  | cs => ((false, false), cs)

/-! ## Numbers -/

/-- Reads a whole number of another base, after its mark. -/
def readBase (base : Nat) (cs : List Char) : Option (Document × List Char) := do
  let (digits, rest) ← takeDigits (isDigitOf base) cs
  let n := natOfDigits base digits
  if n < Nat.pow 2 63 then return (.integer n, rest) else none

/-- Takes the exponent of a real, zero if there is none. -/
def takeExponent : Reader (Option Int)
  | 'e' :: cs | 'E' :: cs => do
    let ((_, negative), cs) := takeSign cs
    let (digits, rest) ← takeDecimals cs
    let n : Int := natOfDigits 10 digits
    return (some (if negative then -n else n), rest)
  | cs => some (none, cs)

/-- Takes the digits after a point. -/
def takePlaces : Reader (Option (List Char))
  | '.' :: cs => (takeDecimals cs).map fun r => (some r.1, r.2)
  | cs => some (none, cs)

/-- The real of a decimal. It may be too small, also below all doubles, but not too great. -/
def real? (negative : Bool) (digits : List Char) (exponent : Int) : Option Document :=
  let x := Decimal.ofDecimal (natOfDigits 10 digits) exponent
  if negative then some (.real (-x)) else if x.isInf then none else some (.real x)

/-- The whole number of decimal digits. -/
def integer? (negative : Bool) (digits : List Char) : Option Document :=
  let n := natOfDigits 10 digits
  if negative then if n ≤ Nat.pow 2 63 then some (.integer (-(n : Int))) else none
  else if n < Nat.pow 2 63 then some (.integer n) else none

/-- Reads a decimal after its sign. -/
def readDecimal (negative : Bool) (cs : List Char) : Option (Document × List Char) := do
  let (whole, cs) ← takeWhole cs
  let (places, cs) ← takePlaces cs
  let (exponent, cs) ← takeExponent cs
  let value ←
    if places.isNone && exponent.isNone then integer? negative whole
    else
      let places := places.getD []
      real? negative (whole ++ places) (exponent.getD 0 - (places.length : Int))
  return (value, cs)

/-- Reads a number. The bases other than ten have no sign. -/
def readNumber (cs : List Char) : Option (Document × List Char) :=
  match takeSign cs with
  | ((_, negative), 'i' :: 'n' :: 'f' :: rest) =>
    some (.real (if negative then -(1.0 / 0.0) else 1.0 / 0.0), rest)
  | (_, 'n' :: 'a' :: 'n' :: rest) => some (.real (0.0 / 0.0), rest)
  | ((false, _), '0' :: 'x' :: rest) => readBase 16 rest
  | ((false, _), '0' :: 'o' :: rest) => readBase 8 rest
  | ((false, _), '0' :: 'b' :: rest) => readBase 2 rest
  | ((_, negative), rest) => readDecimal negative rest

/-! ## Date-times -/

/-- Takes two digits of a number between two bounds. -/
def takePair (low high : Nat) : Reader Nat
  | a :: b :: rest =>
    if isDigitOf 10 a && isDigitOf 10 b then
      let n := natOfDigits 10 [a, b]
      if low ≤ n ∧ n ≤ high then some (n, rest) else none
    else none
  | _ => none

/-- Takes one given character. -/
def takeMark (mark : Char) : List Char → Option (List Char)
  | c :: rest => if c = mark then some rest else none
  | [] => none

def isLeapYear (year : Nat) : Bool :=
  year % 4 == 0 && (year % 100 != 0 || year % 400 == 0)

def daysOfMonth (year : Nat) : Nat → Nat
  | 2 => if isLeapYear year then 29 else 28
  | 4 | 6 | 9 | 11 => 30
  | _ => 31

/-- The text after a date. -/
def afterDate? (cs : List Char) : Option (List Char) := do
  let (century, cs) ← takePair 0 99 cs
  let (yearOfCentury, cs) ← takePair 0 99 cs
  let cs ← takeMark '-' cs
  let (month, cs) ← takePair 1 12 cs
  let cs ← takeMark '-' cs
  let (_, cs) ← takePair 1 (daysOfMonth (century * 100 + yearOfCentury) month) cs
  return cs

/-- The text after the fraction of a second, if there is one. -/
def afterFraction (cs : List Char) : List Char :=
  match cs with
  | '.' :: rest =>
    if (rest.takeWhile (isDigitOf 10)).isEmpty then cs else rest.dropWhile (isDigitOf 10)
  | _ => cs

/-- The text after a time of day. -/
def afterTime? (cs : List Char) : Option (List Char) := do
  let (_, cs) ← takePair 0 23 cs
  let cs ← takeMark ':' cs
  let (_, cs) ← takePair 0 59 cs
  let cs ← takeMark ':' cs
  let (_, cs) ← takePair 0 60 cs
  return afterFraction cs

/-- The text after an offset from universal time, in hours and minutes. -/
def afterOffset? (cs : List Char) : Option (List Char) := do
  let (_, cs) ← takePair 0 23 cs
  let cs ← takeMark ':' cs
  let (_, cs) ← takePair 0 59 cs
  return cs

/-- The text after an offset, if there is one. -/
def skipOffset (cs : List Char) : List Char :=
  match cs with
  | 'Z' :: rest | 'z' :: rest => rest
  | '+' :: rest | '-' :: rest => (afterOffset? rest).getD cs
  | _ => cs

/-- The text after the time that may follow a date. -/
def skipTimeOfDate (cs : List Char) : List Char :=
  match cs with
  | 'T' :: rest | 't' :: rest | ' ' :: rest =>
    match afterTime? rest with
    | some rest => skipOffset rest
    | none => cs
  | _ => cs

/-- Reads a date, a time or both. Such a value is a table of its own kind. -/
def readMoment (cs : List Char) : Option (Document × List Char) := do
  let rest ← (afterDate? cs).map skipTimeOfDate <|> afterTime? cs
  let written := String.ofList (cs.take (cs.length - rest.length))
  return (.ofEntries [("date-time", .text written)], rest)

end GrowthCurve.Toml
