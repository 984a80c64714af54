import GrowthCurve.Decimal.Reading
import GrowthCurve.Text.Blank
import GrowthCurve.Text.Quoted

/-!
# Records

A record is one line of a result file, `size,time` or `size,time,derivative`,
with blanks allowed around every field.
-/

namespace GrowthCurve

structure Record where
  inputSize : UInt64
  elapsed : Float
  derivative : Option Float
deriving Repr, DecidableEq

namespace Record

/-- The number of fields that the record was written with. -/
def width (r : Record) : Nat :=
  if r.derivative.isSome then 3 else 2

/-- Why a line is no record of its file. -/
inductive Malformed where
  | fieldCount (found : Nat)
  | size (field : String) (cause : Decimal.ReadError)
  | elapsed (field : String) (cause : Decimal.ReadError)
  | derivative (field : String) (cause : Decimal.ReadError)
  | otherWidth (expected found : Nat)
deriving Repr, DecidableEq

def Malformed.message : Malformed → String
  | .fieldCount n => "expected 2 or 3 fields, found " ++ toString n
  | .size field cause =>
    "input size " ++ Text.quoted field ++ " is not an integer: " ++ cause.message
  | .elapsed field cause =>
    "elapsed time " ++ Text.quoted field ++ " is not a number: " ++ cause.message
  | .derivative field cause =>
    "time derivative " ++ Text.quoted field ++ " is not a number: " ++ cause.message
  | .otherWidth expected found =>
    "expected " ++ toString expected ++ " fields like the preceding records, found " ++
      toString found

/-- The trimmed fields of a line. -/
def fields (line : List Char) : List (List Char) :=
  (Text.splitAt ',' (Text.trim line)).map Text.trim

def readSize (field : List Char) : Except Malformed UInt64 :=
  match Decimal.readNatural (UInt64.size - 1) field with
  | .ok n => .ok (UInt64.ofNat n)
  | .error e => .error (.size (String.ofList field) e)

def readReal (fault : String → Decimal.ReadError → Malformed) (field : List Char) :
    Except Malformed Float :=
  match Decimal.readReal field with
  | .ok x => .ok x
  | .error e => .error (fault (String.ofList field) e)

/-- Reads one line. Of several bad fields the first is reported. -/
def read (line : List Char) : Except Malformed Record :=
  match fields line with
  | [size, time] => do
    let n ← readSize size
    let t ← readReal .elapsed time
    return ⟨n, t, none⟩
  | [size, time, derivative] => do
    let n ← readSize size
    let t ← readReal .elapsed time
    let d ← readReal .derivative derivative
    return ⟨n, t, some d⟩
  | others => .error (.fieldCount others.length)

end Record

end GrowthCurve
