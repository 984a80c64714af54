/-!
# Blank characters and lines

A character is blank if it has the Unicode property `White_Space`. A text is
trimmed of blanks at both ends and cut into lines at line feeds, where one
carriage return before a line feed belongs to the line end.
-/

namespace GrowthCurve.Text

/-- The property `White_Space` as closed ranges of code points, ascending and apart. -/
def blankRanges : List (Nat × Nat) :=
  [(0x09, 0x0D), (0x20, 0x20), (0x85, 0x85), (0xA0, 0xA0), (0x1680, 0x1680), (0x2000, 0x200A),
   (0x2028, 0x2029), (0x202F, 0x202F), (0x205F, 0x205F), (0x3000, 0x3000)]

def isBlank (c : Char) : Bool :=
  blankRanges.any fun r => r.1 ≤ c.toNat && c.toNat ≤ r.2

def trim (cs : List Char) : List Char :=
  ((cs.dropWhile isBlank).reverse.dropWhile isBlank).reverse

/-- Adds a character in front of the pieces of a text, or a cut before them. -/
def addToPieces (separator c : Char) : List (List Char) → List (List Char)
  | [] => [[c]]
  | piece :: pieces => if c = separator then [] :: piece :: pieces else (c :: piece) :: pieces

/-- Cuts a text at every occurrence of a character; there is one piece more
than there are occurrences. -/
def splitAt (separator : Char) (cs : List Char) : List (List Char) :=
  cs.foldr (addToPieces separator) [[]]

/-- Drops one carriage return at the end. -/
def dropReturn (line : List Char) : List Char :=
  if line.getLast? = some '\r' then line.dropLast else line

/-- The lines of a text. A line feed at the very end opens no further line. -/
def lines (cs : List Char) : List (List Char) :=
  let pieces := splitAt '\n' cs
  let ended := pieces.dropLast.map dropReturn
  match pieces.getLast? with
  | none | some [] => ended
  | some last => ended ++ [last]

end GrowthCurve.Text
