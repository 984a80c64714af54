import GrowthCurve.Document.Basic

/-!
# Values from documents

A decoder asks a document for a value of one shape. A form is a table with
known keys: it starts from a value that has all fields, and every entry of the
table replaces one of them. Keys that the form does not know are passed over.
A list may stand for the table; it gives the fields in their order.
-/

namespace GrowthCurve

/-- Asks a document for a value. -/
abbrev Decoder (α : Type) := Document → Except Fault α

namespace Decode

/-- A whole number from `0` to `limit`. -/
def natural (limit : Nat) : Decoder Nat
  | .integer n => if 0 ≤ n ∧ n ≤ limit then .ok n.toNat else .error .mismatch
  | d => .error d.refusal

/-- A whole number of 64 bits. -/
def size : Decoder Nat :=
  natural (UInt64.size - 1)

/-- A whole number of 32 bits. -/
def word : Decoder UInt32 := fun d =>
  (natural (UInt32.size - 1) d).map UInt32.ofNat

/-- A real; a whole number stands for the nearest one. -/
def real : Decoder Float
  | .real x => .ok x
  | .integer n => .ok (Float.ofInt n)
  | d => .error d.refusal

def text : Decoder String
  | .text s => .ok s
  | d => .error d.refusal

/-- A value that may be given as nothing. -/
def optional {α : Type} (decode : Decoder α) : Decoder (Option α)
  | .nothing => .ok none
  | d => (decode d).map some

/-- The end of a list or a table of which nothing is left. -/
def finish : Ending → Except Fault Unit
  | .broken f => .error f
  | _ => .ok ()

/-- A list of values of one shape. -/
def list {α : Type} (decode : Decoder α) : Decoder (List α)
  | .list items ending => do
    let values ← items.mapM decode
    finish ending
    return values
  | d => .error d.refusal

end Decode

/-- A known key and what its value does to a record of type `σ`. -/
structure FormField (σ : Type) where
  name : String
  /-- A table without this key stands for no record. -/
  needed : Bool
  put : Document → σ → Except Fault σ

/-- A field from a decoder and a setter. -/
def FormField.of {σ α : Type} (name : String) (needed : Bool) (decode : Decoder α)
    (set : α → σ → σ) : FormField σ where
  name := name
  needed := needed
  put := fun d s => (decode d).map fun a => set a s

/-- A table with known keys. -/
structure Form (σ : Type) where
  start : σ
  fields : List (FormField σ)
  /-- A list that gives only the first fields stands for a record. -/
  shortLists : Bool

namespace Form

variable {σ : Type}

/-- The field of a key. -/
def field? (f : Form σ) (key : String) : Option (FormField σ) :=
  f.fields.find? fun x => x.name = key

/-- Replaces fields from the entries of a table. A known key must not occur
twice; this is noticed before its second value is looked at. -/
def putEntries (f : Form σ) : List String → List (Option String × Document) → σ →
    Except Fault (σ × List String)
  | seen, [], s => .ok (s, seen)
  | _, (none, _) :: _, _ => .error .malformed
  | seen, (some key, d) :: rest, s =>
    match f.field? key with
    | none =>
      match d.passedFault? with
      | some fault => .error fault
      | none => f.putEntries seen rest s
    | some x =>
      if key ∈ seen then .error .mismatch
      else do
        let s ← x.put d s
        f.putEntries (key :: seen) rest s

/-- Replaces the fields from the items of a list, as far as there are any. The
fields that are left come back, or else the items. -/
def putItems : List (FormField σ) → List Document → σ →
    Except Fault (σ × List (FormField σ) × List Document)
  | x :: fields, d :: rest, s => do
    let s ← x.put d s
    putItems fields rest s
  | fields, rest, s => .ok (s, fields, rest)

/-- What is allowed to follow in a list after the last field. -/
def finishList : List Document → Ending → Except Fault Unit
  | _, .loose => .ok ()
  | _ :: _, _ => .error .malformed
  | [], ending => Decode.finish ending

/-- Asks for a record. -/
def decode (f : Form σ) : Decoder σ
  | .table entries ending => do
    let (s, seen) ← f.putEntries [] entries f.start
    Decode.finish ending
    if f.fields.all fun x => !x.needed || seen.contains x.name then return s
    else throw .mismatch
  | .list items ending => do
    let (s, missing, surplus) ← putItems f.fields items f.start
    if missing.isEmpty then
      finishList surplus ending
    else
      Decode.finish ending
      if !f.shortLists then throw .mismatch
    return s
  | d => .error d.refusal

end Form

end GrowthCurve
