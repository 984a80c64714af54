import GrowthCurve.Json.Text
import GrowthCurve.Json.Number

/-!
# Writing JSON

On one line without blanks, or with one item a line and two blanks for every
level. An empty list or table stays on its line.
-/

namespace GrowthCurve.Json

inductive Layout where
  | compact
  | indented
deriving Repr, DecidableEq

/-- What stands before an item at a depth. -/
def Layout.lineBreak : Layout → Nat → List Char
  | .compact, _ => []
  | .indented, depth => '\n' :: List.replicate (2 * depth) ' '

def Layout.colon : Layout → List Char
  | .compact => [':']
  | .indented => [':', ' ']

mutual

/-- Writes a document at a depth. What cannot be had is written as nothing. -/
def writeDocument (layout : Layout) (depth : Nat) : Document → List Char
  | .nothing => "null".toList
  | .truth true => "true".toList
  | .truth false => "false".toList
  | .integer n => (toString n).toList
  | .real x => (writeReal x).toList
  | .text s => writeText s
  | .list [] _ => ['[', ']']
  | .list (d :: rest) _ =>
    '[' :: layout.lineBreak (depth + 1) ++ writeDocument layout (depth + 1) d ++
      writeItems layout (depth + 1) rest ++ layout.lineBreak depth ++ [']']
  | .table [] _ => ['\x7b', '\x7d']
  | .table ((key, d) :: rest) _ =>
    '\x7b' :: layout.lineBreak (depth + 1) ++ writeText (key.getD "") ++ layout.colon ++
      writeDocument layout (depth + 1) d ++ writeEntries layout (depth + 1) rest ++
      layout.lineBreak depth ++ ['\x7d']
  | .broken _ _ => "null".toList

/-- Writes further items, each after a comma. -/
def writeItems (layout : Layout) (depth : Nat) : List Document → List Char
  | [] => []
  | d :: rest =>
    ',' :: layout.lineBreak depth ++ writeDocument layout depth d ++ writeItems layout depth rest

/-- Writes further entries, each after a comma. -/
def writeEntries (layout : Layout) (depth : Nat) : List (Option String × Document) → List Char
  | [] => []
  | (key, d) :: rest =>
    ',' :: layout.lineBreak depth ++ writeText (key.getD "") ++ layout.colon ++
      writeDocument layout depth d ++ writeEntries layout depth rest

end

def write (layout : Layout) (d : Document) : String :=
  String.ofList (writeDocument layout 0 d)

end GrowthCurve.Json
