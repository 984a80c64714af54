/-!
# Documents

What a structured text stands for: lists and tables of simple values. A
document also says where its text is at fault. The fault stays in the place
where it was met, so that whoever reads the document from front to back comes
upon faults of the text and values of the wrong shape in the order of the text.
-/

namespace GrowthCurve

/-- What keeps a document from being read. -/
inductive Fault where
  /-- The text does not follow the format. -/
  | malformed
  /-- A value does not have the expected shape. -/
  | mismatch
  /-- The text ends too early. -/
  | unfinished
deriving Repr, DecidableEq

/-- How a list or a table ends. -/
inductive Ending where
  /-- All of it has to be taken. -/
  | closed
  /-- What is left over may be ignored. -/
  | loose
  /-- The text is at fault before the end. -/
  | broken (fault : Fault)
deriving Repr, DecidableEq

/-- A value of a structured text. -/
inductive Document where
  | nothing
  | truth (value : Bool)
  | integer (value : Int)
  | real (value : Float)
  | text (value : String)
  | list (items : List Document) (ending : Ending)
  /-- Entries in the order of the text. A key that is no text is `none`. -/
  | table (entries : List (Option String × Document)) (ending : Ending)
  /-- A value that cannot be had. Where nobody asks for it, only `passed` counts. -/
  | broken (asked : Fault) (passed : Option Fault)
deriving Repr, Inhabited

def Ending.fault? : Ending → Option Fault
  | .broken f => some f
  | _ => none

namespace Document

/-- A table with nothing wrong in it. -/
def ofEntries (entries : List (String × Document)) : Document :=
  .table (entries.map fun e => (some e.1, e.2)) .closed

/-- A list with nothing wrong in it. -/
def ofItems (items : List Document) : Document :=
  .list items .closed

/-- The fault of a value that does not have the expected shape. -/
def refusal : Document → Fault
  | .broken asked _ => asked
  | _ => .mismatch

mutual

/-- The first fault of a value that nobody asks for. -/
def passedFault? : Document → Option Fault
  | .list items ending => passedFaultOfItems? items <|> ending.fault?
  | .table entries ending => passedFaultOfEntries? entries <|> ending.fault?
  | .broken _ passed => passed
  | _ => none

def passedFaultOfItems? : List Document → Option Fault
  | [] => none
  | d :: rest => d.passedFault? <|> passedFaultOfItems? rest

def passedFaultOfEntries? : List (Option String × Document) → Option Fault
  | [] => none
  | (_, d) :: rest => d.passedFault? <|> passedFaultOfEntries? rest

end

end Document

end GrowthCurve
