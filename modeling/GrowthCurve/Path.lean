import GrowthCurve.Text.Blank

/-!
# Paths

A path is a text of names separated by slashes. Empty names and single points
stand for nothing, except for a single point at the very start.
-/

namespace GrowthCurve

structure Path where
  text : String
deriving Repr, DecidableEq, Inhabited

namespace Path

/-- The names between the slashes, empty ones and points included. -/
def pieces (p : Path) : List String :=
  (Text.splitAt '/' p.text.toList).map String.ofList

def isAbsolute (p : Path) : Bool :=
  p.text.toList.head? = some '/'

/-- The names that are walked through. -/
def names (p : Path) : List String :=
  p.pieces.filter fun n => n ≠ "" && n ≠ "."

/-- The last name, if the path ends in one and not in a step upwards. -/
def fileName? (p : Path) : Option String :=
  match p.names.getLast? with
  | none | some ".." => none
  | some n => some n

/-- The part of a name before its last point; a point at the very start begins
no extension. -/
def withoutExtension (name : String) : String :=
  let cs := name.toList
  let stem := (cs.reverse.dropWhile (· ≠ '.')).drop 1
  if stem.isEmpty then name else String.ofList stem.reverse

def stem? (p : Path) : Option String :=
  p.fileName?.map withoutExtension

/-- The path asks for a directory. -/
def endsInSlash (p : Path) : Bool :=
  p.pieces.getLast? = some "" && p.text ≠ "" || p.pieces.getLast? = some "."

end Path

end GrowthCurve
