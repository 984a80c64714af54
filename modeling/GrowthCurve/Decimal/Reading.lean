/-!
# Reading numbers

Decimal texts of whole numbers within a bound and of reals. A real is rounded
once from its exact decimal value; the names of the infinities and of NaN are
accepted in any case.
-/

namespace GrowthCurve.Decimal

inductive ReadError where
  | empty
  | invalidDigit
  | tooLarge
  | tooSmall
  | invalidReal
  | emptyReal
deriving Repr, DecidableEq

def ReadError.message : ReadError → String
  | .empty => "cannot parse integer from empty string"
  | .invalidDigit => "invalid digit found in string"
  | .tooLarge => "number too large to fit in target type"
  | .tooSmall => "number too small to fit in target type"
  | .emptyReal => "cannot parse float from empty string"
  | .invalidReal => "invalid float literal"

def digit? (c : Char) : Option Nat :=
  if '0' ≤ c ∧ c ≤ '9' then some (c.toNat - '0'.toNat) else none

def isDigit (c : Char) : Bool :=
  (digit? c).isSome

/-! ## Whole numbers -/

/-- Reads digits onto `value`. Of two faults the first from the left is
reported, and a character that is no digit before an overflow at it. -/
def readDigits (limit : Nat) (overflow : ReadError) : Nat → List Char → Except ReadError Nat
  | value, [] => .ok value
  | value, c :: rest =>
    match digit? c with
    | none => .error .invalidDigit
    | some d =>
      if value * 10 + d ≤ limit then readDigits limit overflow (value * 10 + d) rest
      else .error overflow

/-- Reads a whole number from `0` to `limit`, with an optional plus sign. -/
def readNatural (limit : Nat) : List Char → Except ReadError Nat
  | [] => .error .empty
  | ['+'] => .error .invalidDigit
  | '+' :: rest => readDigits limit .tooLarge 0 rest
  | cs => readDigits limit .tooLarge 0 cs

/-- Reads a whole number of 64 signed bits. -/
def readInteger : List Char → Except ReadError Int
  | [] => .error .empty
  | ['+'] | ['-'] => .error .invalidDigit
  | '-' :: rest => (readDigits (Nat.pow 2 63) .tooSmall 0 rest).map fun n => -(n : Int)
  | '+' :: rest => (readDigits (Nat.pow 2 63 - 1) .tooLarge 0 rest).map fun n => (n : Int)
  | cs => (readDigits (Nat.pow 2 63 - 1) .tooLarge 0 cs).map fun n => (n : Int)

/-! ## Reals -/

def natOfDigits (cs : List Char) : Nat :=
  cs.foldl (fun n c => n * 10 + (digit? c).getD 0) 0

/-- The double nearest to `mantissa · 10 ^ exponent`. Exponents far outside
the range of doubles are settled without computing the power. -/
def ofDecimal (mantissa : Nat) (exponent : Int) : Float :=
  if mantissa = 0 then 0
  else
    let magnitude := ((toString mantissa).length : Int) + exponent
    if 400 < magnitude then 1.0 / 0.0
    else if magnitude < -400 then 0
    else Float.ofScientific mantissa (exponent < 0) exponent.natAbs

/-- Splits a decimal without sign into its whole digits, the digits after the
point and its exponent. At least one digit is needed, on either side of the
point. -/
def splitReal? (cs : List Char) : Option (List Char × List Char × Int) :=
  let whole := cs.takeWhile isDigit
  let afterWhole := cs.dropWhile isDigit
  let (places, afterPlaces) := match afterWhole with
    | '.' :: rest => (rest.takeWhile isDigit, rest.dropWhile isDigit)
    | rest => ([], rest)
  if whole.isEmpty && places.isEmpty then none
  else match afterPlaces with
    | [] => some (whole, places, 0)
    | c :: rest =>
      if c = 'e' ∨ c = 'E' then
        let (negative, digits) := match rest with
          | '-' :: ds => (true, ds)
          | '+' :: ds => (false, ds)
          | ds => (false, ds)
        if digits.isEmpty || !digits.all isDigit then none
        else
          let n : Int := natOfDigits digits
          some (whole, places, if negative then -n else n)
      else none

def readUnsigned (cs : List Char) : Except ReadError Float :=
  match splitReal? cs with
  | some (whole, places, exponent) =>
    .ok (ofDecimal (natOfDigits (whole ++ places)) (exponent - (places.length : Int)))
  | none =>
    match String.ofList (cs.map Char.toLower) with
    | "inf" | "infinity" => .ok (1.0 / 0.0)
    | "nan" => .ok (0.0 / 0.0)
    | _ => .error .invalidReal

def readReal : List Char → Except ReadError Float
  | [] => .error .emptyReal
  | '-' :: rest => (readUnsigned rest).map (- ·)
  | '+' :: rest => readUnsigned rest
  | cs => readUnsigned cs

end GrowthCurve.Decimal
