import GrowthCurve.Document.Basic

/-!
# Tables of a TOML text

A table comes into being by its own header, by the header of a table below it,
or by a key with points. How it came into being decides what may be added to
it: a header opens a table once, and keys with points only reach into tables
that were made by such keys.
-/

namespace GrowthCurve.Toml

/-- How a table came into being. -/
inductive Origin where
  | header
  | longerHeader
  | dottedKey
deriving Repr, DecidableEq

/-- What a key stands for while the text is read. -/
inductive Node where
  | value (d : Document)
  | table (origin : Origin) (entries : List (String × Node))
  /-- The tables of a repeated header. -/
  | tables (elements : List Node)

abbrev Entries := List (String × Node)

/-- A key with points and its value: the tables that it goes through, the last part, the value. -/
structure Pair where
  path : List String
  key : String
  value : Document

/-- A header and the pairs below it. -/
structure Section where
  /-- Every header of this kind adds one more table. -/
  repeated : Bool
  path : List String
  key : String
  pairs : List Pair

namespace Entries

def find? (key : String) (es : Entries) : Option Node :=
  (List.find? (fun e => e.1 = key) es).map Prod.snd

/-- Replaces what a key stands for. -/
def replace (key : String) (n : Node) (es : Entries) : Entries :=
  es.map fun e => if e.1 = key then (key, n) else e

end Entries

namespace Node

/-- Changes the entries of the last of some tables. -/
def changeLast? (change : Entries → Option Entries) (elements : List Node) : Option Node :=
  match elements.getLast? with
  | some (.table origin es) =>
    (change es).map fun es => .tables (elements.dropLast ++ [.table origin es])
  | _ => none

/-- Reaches into a table by a key with points, for its last part or further down. -/
def reachByKey? (last : Bool) (change : Entries → Option Entries) : Node → Option Node
  | .table .dottedKey es => (change es).map (.table .dottedKey)
  | .table .longerHeader es => if last then none else (change es).map (.table .longerHeader)
  | .tables elements => if last then none else changeLast? change elements
  | _ => none

/-- Reaches into a table by a header. -/
def reachByHeader? (change : Entries → Option Entries) : Node → Option Node
  | .table origin es => (change es).map (.table origin)
  | .tables elements => changeLast? change elements
  | .value _ => none

mutual

/-- The value that a node stands for in the end. -/
def toDocument : Node → Document
  | .value d => d
  | .table _ es => .table (documentsOfEntries es) .closed
  | .tables elements => .list (documentsOf elements) .loose

def documentsOf : List Node → List Document
  | [] => []
  | n :: rest => n.toDocument :: documentsOf rest

def documentsOfEntries : List (String × Node) → List (Option String × Document)
  | [] => []
  | (key, n) :: rest => (some key, n.toDocument) :: documentsOfEntries rest

end

end Node

namespace Entries

/-- Adds a value below the tables of a path. -/
def put (key : String) (d : Document) : List String → Entries → Option Entries
  | [], es => if (es.find? key).isSome then none else some (es ++ [(key, .value d)])
  | p :: path, es =>
    match es.find? p with
    | none => (put key d path []).map fun inner => es ++ [(p, .table .dottedKey inner)]
    | some n => (n.reachByKey? path.isEmpty (put key d path)).map fun n => es.replace p n

/-- Adds pairs in order. -/
def putAll (es : Entries) (pairs : List Pair) : Option Entries :=
  pairs.foldlM (fun es p => es.put p.key p.value p.path) es

/-- Changes the table at the end of a path of headers. -/
def within (change : Entries → Option Entries) : List String → Entries → Option Entries
  | [], es => change es
  | p :: path, es =>
    match es.find? p with
    | none => (within change path []).map fun inner => es ++ [(p, .table .longerHeader inner)]
    | some n => (n.reachByHeader? (within change path)).map fun n => es.replace p n

/-- Opens a table once, with the tables that longer headers have put into it. -/
def openTable (s : Section) (es : Entries) : Option Entries :=
  match es.find? s.key with
  | none => (putAll [] s.pairs).map fun inner => es ++ [(s.key, .table .header inner)]
  | some (.table .longerHeader inner) =>
    (putAll inner s.pairs).map fun inner => es.replace s.key (.table .header inner)
  | some _ => none

/-- Adds one more table to those of a repeated header. -/
def addTable (s : Section) (es : Entries) : Option Entries := do
  let inner ← putAll [] s.pairs
  match es.find? s.key with
  | none => return es ++ [(s.key, .tables [.table .header inner])]
  | some (.tables elements) =>
    return es.replace s.key (.tables (elements ++ [.table .header inner]))
  | some _ => none

def addSection (es : Entries) (s : Section) : Option Entries :=
  within (if s.repeated then addTable s else openTable s) s.path es

/-- The value of a whole table. -/
def toDocument (es : Entries) : Document :=
  .table (Node.documentsOfEntries es) .closed

end Entries

/-- The table of pairs and of the sections after them. -/
def assemble? (pairs : List Pair) (sections : List Section) : Option Document := do
  let es ← Entries.putAll [] pairs
  let es ← sections.foldlM Entries.addSection es
  return es.toDocument

end GrowthCurve.Toml
