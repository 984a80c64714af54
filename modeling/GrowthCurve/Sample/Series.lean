import GrowthCurve.Sample.Record
import GrowthCurve.Path

/-!
# Series

A result file holds one record per line and at most blank lines after the
last one. In memory it is a series: one list per column, in file order. The
derivative column is there only if every record has it, and its first entry is
`0`, since the first run has no predecessor.
-/

namespace GrowthCurve

structure Series where
  source : Path
  inputSizes : List UInt64
  times : List Float
  derivatives : Option (List Float)
deriving Repr, DecidableEq

namespace Series

/-- The entries of a column that every record has. -/
def fullColumn? (column : Record → Option Float) : List Record → Option (List Float)
  | [] => some []
  | r :: rest =>
    match column r, fullColumn? column rest with
    | some x, some xs => some (x :: xs)
    | _, _ => none

def zeroFirst : List Float → List Float
  | [] => []
  | _ :: rest => 0 :: rest

def derivativeColumn (records : List Record) : Option (List Float) :=
  if records.isEmpty then none
  else (fullColumn? Record.derivative records).map zeroFirst

def ofRecords (source : Path) (records : List Record) : Series where
  source := source
  inputSizes := records.map Record.inputSize
  times := records.map Record.elapsed
  derivatives := derivativeColumn records

def size (s : Series) : Nat :=
  s.inputSizes.length

/-- Input sizes as numbers, for fits and figures. -/
def xs (s : Series) : List Float :=
  s.inputSizes.map UInt64.toFloat

/-- The name of the series in a legend: that of its file without the
extension, or else the whole path. -/
def label (s : Series) : String :=
  s.source.stem?.getD s.source.text

/-! ## Reading a file -/

/-- The first line that is no record of the file, counted from one. -/
structure Malformed where
  line : Nat
  cause : Record.Malformed
deriving Repr, DecidableEq

/-- The lines up to the last one that is not blank. -/
def content (text : List Char) : List (List Char) :=
  ((Text.lines text).reverse.dropWhile fun line => line.all Text.isBlank).reverse

/-- Reads records, each as wide as the first one. -/
def readRecords (number : Nat) (width : Option Nat) :
    List (List Char) → Except Malformed (List Record)
  | [] => .ok []
  | line :: rest => do
    let r ← (Record.read line).mapError (Malformed.mk number)
    let expected := width.getD r.width
    if r.width ≠ expected then
      throw ⟨number, .otherWidth expected r.width⟩
    let others ← readRecords (number + 1) (some expected) rest
    return r :: others

/-- Reads the text of a result file. The source is only used as a name. -/
def read (source : Path) (text : String) : Except Malformed Series :=
  (readRecords 1 none (content text.toList)).map (ofRecords source)

end Series

end GrowthCurve
