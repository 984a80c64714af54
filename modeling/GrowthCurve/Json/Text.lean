import GrowthCurve.Document.Basic
import GrowthCurve.Text.Hexadecimal

/-!
# Texts in JSON

Inside quotes a character stands for itself or is escaped. An escape with four
hexadecimal digits gives one 16-bit unit, and characters beyond 16 bits are
given by two of them. A text in which such a half stands alone is a fault, but
only where the text is asked for.
-/

namespace GrowthCurve.Json

open Text

/-! ## Writing -/

def escapeLetter? : Char → Option Char
  | '"' => some '"'
  | '\\' => some '\\'
  | '\n' => some 'n'
  | '\r' => some 'r'
  | '\t' => some 't'
  | '\x08' => some 'b'
  | '\x0c' => some 'f'
  | _ => none

/-- A character inside quotes. -/
def writeChar (c : Char) : List Char :=
  match escapeLetter? c with
  | some letter => ['\\', letter]
  | none =>
    if c.toNat < 0x20 then ['\\', 'u', '0', '0', hexDigit (c.toNat / 16), hexDigit (c.toNat % 16)]
    else [c]

def writeText (s : String) : List Char :=
  '"' :: s.toList.flatMap writeChar ++ ['"']

/-! ## Reading -/

/-- A character, or half of one that is given by two escapes. -/
inductive Piece where
  | char (c : Char)
  | half (unit : Nat)
deriving Repr, DecidableEq

def isHighHalf (unit : Nat) : Bool := 0xD800 ≤ unit && unit < 0xDC00
def isLowHalf (unit : Nat) : Bool := 0xDC00 ≤ unit && unit < 0xE000

def Piece.ofUnit (unit : Nat) : Piece :=
  if isHighHalf unit || isLowHalf unit then .half unit else .char (Char.ofNat unit)

def escaped? : Char → Option Char
  | '"' => some '"'
  | '\\' => some '\\'
  | '/' => some '/'
  | 'n' => some '\n'
  | 'r' => some '\r'
  | 't' => some '\t'
  | 'b' => some '\x08'
  | 'f' => some '\x0c'
  | _ => none

/-- Four digits are taken as four bytes; with fewer bytes left the text ends too early. -/
def shortEscapeFault (rest : List Char) : Fault :=
  if (String.ofList rest).utf8ByteSize < 4 then .unfinished else .malformed

/-- Reads up to the closing quote: the pieces, and what follows or the fault
that comes after the pieces. -/
def scanText : List Char → List Piece × Except Fault (List Char)
  | [] => ([], .error .unfinished)
  | '"' :: rest => ([], .ok rest)
  | ['\\'] => ([], .error .unfinished)
  | '\\' :: 'u' :: a :: b :: c :: d :: rest =>
    match hexNumber? [a, b, c, d] with
    | some n =>
      let (pieces, after) := scanText rest
      (Piece.ofUnit n :: pieces, after)
    | none => ([], .error .malformed)
  | '\\' :: 'u' :: rest => ([], .error (shortEscapeFault rest))
  | '\\' :: letter :: rest =>
    match escaped? letter with
    | some c =>
      let (pieces, after) := scanText rest
      (.char c :: pieces, after)
    | none => ([], .error .malformed)
  | c :: rest =>
    if c.toNat < 0x20 then ([], .error .malformed)
    else
      let (pieces, after) := scanText rest
      (.char c :: pieces, after)

def joinHalves (high low : Nat) : Char :=
  Char.ofNat (0x10000 + (high - 0xD800) * 0x400 + (low - 0xDC00))

/-- Joins the halves, unless one stands alone. -/
def join? : List Piece → Option (List Char)
  | [] => some []
  | .char c :: rest => (join? rest).map (c :: ·)
  | .half high :: .half low :: rest =>
    if isHighHalf high && isLowHalf low then (join? rest).map (joinHalves high low :: ·) else none
  | .half _ :: _ => none

/-- The pieces without a first half at the end, which another could still follow. -/
def dropOpenHalf (pieces : List Piece) : List Piece :=
  match pieces.getLast? with
  | some (.half unit) => if isHighHalf unit then pieces.dropLast else pieces
  | _ => pieces

/-- What came of a text: the text itself, `none` if a half stands alone in it,
or the faults with and without being asked for it. -/
inductive TextScan where
  | done (value : Option String) (rest : List Char)
  | stopped (asked passed : Fault)

def readText (cs : List Char) : TextScan :=
  match scanText cs with
  | (pieces, .ok rest) => .done ((join? pieces).map String.ofList) rest
  | (pieces, .error fault) =>
    .stopped (if (join? (dropOpenHalf pieces)).isSome then fault else .malformed) fault

end GrowthCurve.Json
