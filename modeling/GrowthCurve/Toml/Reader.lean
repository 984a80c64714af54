import GrowthCurve.Document.Decode
import GrowthCurve.Toml.Number
import GrowthCurve.Toml.Tree

/-!
# Reading TOML

A text is a sequence of lines, each with a pair, a header, a comment or
nothing. A value that goes over several lines belongs to the line it starts on.
-/

namespace GrowthCurve.Toml

/-! ## Values -/

/-- Reads the items of a list up to its closing bracket. A comma may follow the last one. -/
def readItems (item : Reader Document) : (fuel : Nat) → Reader (List Document)
  | 0, _ => none
  | fuel + 1, cs => do
    match ← skipSpace? false cs with
    | ']' :: rest => return ([], rest)
    | cs =>
      let (d, rest) ← item cs
      match ← skipSpace? false rest with
      | ']' :: rest => return ([d], rest)
      | ',' :: rest =>
        let (items, rest) ← readItems item fuel rest
        return (d :: items, rest)
      | _ => none

/-- The pair of a key and its value. -/
def pair? (parts : List String) (value : Document) : Option Pair :=
  parts.getLast?.map fun key => ⟨parts.dropLast, key, value⟩

/-- Reads a key and its value. -/
def readPair (item : Reader Document) (cs : List Char) : Option (Pair × List Char) := do
  let (parts, rest) ← readKey cs
  match rest with
  | '=' :: rest =>
    let (d, rest) ← item (skipBlanks rest)
    let p ← pair? parts d
    return (p, rest)
  | _ => none

/-- Reads the pairs of a table that stands on one line, up to its closing brace. -/
def readInline (item : Reader Document) : (fuel : Nat) → Reader (List Pair)
  | 0, _ => none
  | fuel + 1, cs => do
    let (p, rest) ← readPair item cs
    match skipBlanks rest with
    | '\x7d' :: rest => return ([p], rest)
    | ',' :: rest =>
      let (pairs, rest) ← readInline item fuel rest
      return (p :: pairs, rest)
    | _ => none

/-- Reads a value. Lists and tables are nested at most `depth` deep. -/
def readValue : (depth : Nat) → Reader Document
  | _, '"' :: rest => (readText '"' rest).map fun r => (.text r.1, r.2)
  | _, '\'' :: rest => (readText '\'' rest).map fun r => (.text r.1, r.2)
  | _, 't' :: 'r' :: 'u' :: 'e' :: rest => some (.truth true, rest)
  | _, 'f' :: 'a' :: 'l' :: 's' :: 'e' :: rest => some (.truth false, rest)
  | 0, '[' :: _ => none
  | 0, '\x7b' :: _ => none
  | depth + 1, '[' :: rest =>
    (readItems (readValue depth) (rest.length + 1) rest).map fun r => (.list r.1 .loose, r.2)
  | depth + 1, '\x7b' :: rest =>
    match skipBlanks rest with
    | '\x7d' :: rest => some (.ofEntries [], rest)
    | rest => do
      let (pairs, rest) ← readInline (readValue depth) (rest.length + 1) rest
      let d ← assemble? pairs []
      return (d, rest)
  | _, cs => readMoment cs <|> readNumber cs

/-! ## Lines -/

/-- What a line holds. -/
inductive Statement where
  | pair (p : Pair)
  | header (repeated : Bool) (path : List String) (key : String)

/-- Reads a header after its first bracket. -/
def readHeader (cs : List Char) : Option (Statement × List Char) := do
  match cs with
  | '[' :: cs =>
    let (parts, rest) ← readKey cs
    match rest with
    | ']' :: ']' :: rest => return (.header true parts.dropLast (← parts.getLast?), rest)
    | _ => none
  | cs =>
    let (parts, rest) ← readKey cs
    match rest with
    | ']' :: rest => return (.header false parts.dropLast (← parts.getLast?), rest)
    | _ => none

/-- Reads one line with a pair or a header. -/
def readStatement (cs : List Char) : Option (Statement × List Char) := do
  let (s, rest) ← match cs with
    | '[' :: rest => readHeader rest
    | cs => (readPair (readValue nestingLimit) cs).map fun r => (.pair r.1, r.2)
  let rest ← finishLine? rest
  return (s, rest)

/-- Reads the lines of a text. -/
def readStatements : (fuel : Nat) → List Char → Option (List Statement)
  | 0, _ => none
  | fuel + 1, cs =>
    match skipBlanks cs with
    | [] => some []
    | c :: rest =>
      if c = '#' ∨ c = '\n' ∨ c = '\r' then do
        readStatements fuel (← finishLine? (c :: rest))
      else do
        let (s, rest) ← readStatement (c :: rest)
        let others ← readStatements fuel rest
        return s :: others

/-- The pairs before the first header, and the sections. -/
def sections : List Statement → List Pair × List Section
  | [] => ([], [])
  | .pair p :: rest =>
    let (pairs, others) := sections rest
    (p :: pairs, others)
  | .header repeated path key :: rest =>
    let (pairs, others) := sections rest
    ([], ⟨repeated, path, key, pairs⟩ :: others)

/-- The text after a byte order mark. -/
def dropMark : List Char → List Char
  | c :: rest => if c.toNat = 0xFEFF then rest else c :: rest
  | [] => []

/-- Reads a whole text. -/
def read? (cs : List Char) : Option Document := do
  let statements ← readStatements (cs.length + 1) (dropMark cs)
  let (pairs, others) := sections statements
  assemble? pairs others

/-- Asks a text for a value. -/
def decode {α : Type} (decoder : Decoder α) (text : String) : Except Fault α :=
  match read? text.toList with
  | some d => decoder d
  | none => .error .malformed

end GrowthCurve.Toml
