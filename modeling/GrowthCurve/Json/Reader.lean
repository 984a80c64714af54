import GrowthCurve.Document.Decode
import GrowthCurve.Json.Text
import GrowthCurve.Json.Number

/-!
# Reading JSON

Any text gives a document. A fault of the text is put where it was met, and
nothing after it is read.
-/

namespace GrowthCurve.Json

def isBlank (c : Char) : Bool :=
  c == ' ' || c == '\n' || c == '\t' || c == '\r'

def skipBlanks (cs : List Char) : List Char :=
  cs.dropWhile isBlank

/-- What came of reading a part: its value, and the text after it unless a
fault ended the reading. -/
abbrev Scan (α : Type) := α × Option (List Char)

/-- A fault that counts whether or not the value is asked for. -/
def stop (fault : Fault) : Scan Document :=
  (.broken fault (some fault), none)

/-- Reads the rest of a name that stands for a value. -/
def readName (value : Document) : (name : List Char) → List Char → Scan Document
  | [], rest => (value, some rest)
  | _ :: _, [] => stop .unfinished
  | n :: name, c :: rest => if c = n then readName value name rest else stop .malformed

/-- The fault of a text that does not go on as it has to. -/
def unexpected (rest : List Char) : Fault :=
  if rest.isEmpty then .unfinished else .malformed

/-- Reads the items of a list up to its closing bracket. -/
def readItems (item : List Char → Scan Document) :
    (fuel : Nat) → List Char → Scan (List Document × Ending)
  | 0, _ => (([], .broken .unfinished), none)
  | fuel + 1, cs =>
    match item cs with
    | (d, none) => (([d], .closed), none)
    | (d, some rest) =>
      match skipBlanks rest with
      | ']' :: rest => (([d], .closed), some rest)
      | ',' :: rest =>
        let ((items, ending), after) := readItems item fuel rest
        ((d :: items, ending), after)
      | rest => (([d], .broken (unexpected rest)), none)

/-- Reads the value of a key, from the colon on. -/
def readEntryValue (item : List Char → Scan Document) (cs : List Char) : Scan Document :=
  match skipBlanks cs with
  | ':' :: rest => item rest
  | rest => stop (unexpected rest)

/-- Reads the entries of a table up to its closing brace. -/
def readEntries (item : List Char → Scan Document) :
    (fuel : Nat) → List Char → Scan (List (Option String × Document) × Ending)
  | 0, _ => (([], .broken .unfinished), none)
  | fuel + 1, cs =>
    match skipBlanks cs with
    | '"' :: cs =>
      match readText cs with
      | .stopped asked passed =>
        if asked = passed then (([], .broken asked), none)
        else (([(none, .broken asked (some passed))], .closed), none)
      | .done key rest =>
        match readEntryValue item rest with
        | (d, none) => (([(key, d)], .closed), none)
        | (d, some rest) =>
          match skipBlanks rest with
          | '\x7d' :: rest => (([(key, d)], .closed), some rest)
          | ',' :: rest =>
            let ((entries, ending), after) := readEntries item fuel rest
            (((key, d) :: entries, ending), after)
          | rest => (([(key, d)], .broken (unexpected rest)), none)
    | rest => (([], .broken (unexpected rest)), none)

/-- Reads a value that is nested at most `depth` deep. -/
def readValue : (depth : Nat) → List Char → Scan Document
  | 0, _ => stop .unfinished
  | depth + 1, cs =>
    match skipBlanks cs with
    | [] => stop .unfinished
    | 'n' :: rest => readName .nothing ['u', 'l', 'l'] rest
    | 't' :: rest => readName (.truth true) ['r', 'u', 'e'] rest
    | 'f' :: rest => readName (.truth false) ['a', 'l', 's', 'e'] rest
    | '"' :: rest =>
      match readText rest with
      | .done (some s) rest => (.text s, some rest)
      | .done none rest => (.broken .malformed none, some rest)
      | .stopped asked passed => (.broken asked (some passed), none)
    | '[' :: rest =>
      match skipBlanks rest with
      | [] => (.list [] (.broken .unfinished), none)
      | ']' :: rest => (.ofItems [], some rest)
      | rest =>
        let ((items, ending), after) := readItems (readValue depth) (rest.length + 1) rest
        (.list items ending, after)
    | '\x7b' :: rest =>
      match skipBlanks rest with
      | [] => (.table [] (.broken .unfinished), none)
      | '\x7d' :: rest => (.ofEntries [], some rest)
      | rest =>
        let ((entries, ending), after) := readEntries (readValue depth) (rest.length + 1) rest
        (.table entries ending, after)
    | c :: rest =>
      if c = '-' || Decimal.isDigit c then readNumber (c :: rest) else stop .malformed

/-- Reads a text that starts with a document. A text is nested less deep than it is long. -/
def read (cs : List Char) : Scan Document :=
  readValue (cs.length + 1) cs

/-- Asks a text for a value. Nothing but blanks may follow. -/
def decode {α : Type} (decoder : Decoder α) (text : String) : Except Fault α := do
  let (d, rest) := read text.toList
  let value ← decoder d
  match rest with
  | none => return value
  | some rest => if (skipBlanks rest).isEmpty then return value else throw .malformed

end GrowthCurve.Json
