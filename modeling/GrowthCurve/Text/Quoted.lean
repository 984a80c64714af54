import GrowthCurve.Text.Hidden

/-!
# Quoted texts

A text in a message stands between double quotes. Quotes, backslashes and the
common controls are written with a letter behind a backslash, and any other
character that does not show by its number.
-/

namespace GrowthCurve.Text

/-- Lower-case hexadecimal digits. -/
def hexadecimal (n : Nat) : String :=
  String.ofList (Nat.toDigits 16 n)

/-- The letter that stands for a character behind a backslash. -/
def escapeLetter? : Char → Option Char
  | '"' => some '"'
  | '\\' => some '\\'
  | '\t' => some 't'
  | '\r' => some 'r'
  | '\n' => some 'n'
  | '\x00' => some '0'
  | _ => none

def escape (c : Char) : String :=
  match escapeLetter? c with
  | some l => String.ofList ['\\', l]
  | none => if isHidden c then "\\u\x7b" ++ hexadecimal c.toNat ++ "\x7d" else String.singleton c

/-- A text between double quotes. -/
def quoted (s : String) : String :=
  "\"" ++ String.join (s.toList.map escape) ++ "\""

end GrowthCurve.Text
