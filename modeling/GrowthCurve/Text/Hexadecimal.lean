/-!
# Digits of any base

The digits `0`–`9` and the letters `a`–`f` in either case, as numbers.
-/

namespace GrowthCurve.Text

def digitValue? (c : Char) : Option Nat :=
  if '0' ≤ c ∧ c ≤ '9' then some (c.toNat - '0'.toNat)
  else if 'a' ≤ c ∧ c ≤ 'f' then some (c.toNat - 'a'.toNat + 10)
  else if 'A' ≤ c ∧ c ≤ 'F' then some (c.toNat - 'A'.toNat + 10)
  else none

/-- A digit of a base up to sixteen. -/
def isDigitOf (base : Nat) (c : Char) : Bool :=
  match digitValue? c with
  | some v => v < base
  | none => false

/-- The number of digits, most significant first. -/
def natOfDigits (base : Nat) (cs : List Char) : Nat :=
  cs.foldl (fun n c => n * base + (digitValue? c).getD 0) 0

/-- The number of hexadecimal digits, unless one of them is none. -/
def hexNumber? (cs : List Char) : Option Nat :=
  if cs.all (isDigitOf 16) then some (natOfDigits 16 cs) else none

def hexDigit (value : Nat) : Char :=
  if value < 10 then Char.ofNat ('0'.toNat + value) else Char.ofNat ('a'.toNat + value - 10)

end GrowthCurve.Text
