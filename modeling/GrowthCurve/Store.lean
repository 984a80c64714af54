import GrowthCurve.Path
import GrowthCurve.Plot.Svg

/-!
# Files

A whole tree of files as a value, with the working directory in it. Files hold
bytes, or a figure that reads as its SVG document.
-/

namespace GrowthCurve

inductive FileError where
  | notFound
  | notDirectory
  | isDirectory
  | notUnicode
  /-- What only a real file system can answer. -/
  | other (reason : String)
deriving Repr, DecidableEq

def FileError.message : FileError → String
  | .notFound => "No such file or directory (os error 2)"
  | .notDirectory => "Not a directory (os error 20)"
  | .isDirectory => "Is a directory (os error 21)"
  | .notUnicode => "stream did not contain valid UTF-8"
  | .other reason => reason

inductive Entry where
  | directory
  | bytes (content : ByteArray)
  | figure (drawn : Plot.Figure)

/-- Entries by the names that lead to them from the root, one entry a place. The
root itself is always there. Paths that are not absolute start from the working
directory. -/
structure Store where
  entries : List (List String × Entry)
  workingDirectory : List String := []

namespace Store

/-- Nothing but the root, which is the working directory. -/
def empty : Store := { entries := [] }

def get? (s : Store) (place : List String) : Option Entry :=
  if place.isEmpty then some .directory
  else (s.entries.find? fun e => e.1 = place).map Prod.snd

/-- Replaces or adds the entry at a place. -/
def set (s : Store) (place : List String) (entry : Entry) : Store :=
  { s with entries := s.entries.filter (fun e => e.1 ≠ place) ++ [(place, entry)] }

/-- Removes a place and all that lies below it. -/
def erase (s : Store) (place : List String) : Store :=
  { s with entries := s.entries.filter fun e => !place.isPrefixOf e.1 }

/-- The names directly below the working directory. -/
def topNames (s : Store) : List String :=
  s.entries.filterMap fun e =>
    if e.1.dropLast = s.workingDirectory then e.1.getLast? else none

/-! ## Walking along a path -/

/-- Steps from a directory to one of its names or upwards. Above the root there
is the root again. -/
def step (s : Store) (place : List String) (name : String) : Except FileError (List String) :=
  match s.get? place with
  | none => .error .notFound
  | some .directory => .ok (if name = ".." then place.dropLast else place ++ [name])
  | some _ => .error .notDirectory

/-- The directory from which a path starts. -/
def startOf (s : Store) (p : Path) : List String :=
  if p.isAbsolute then [] else s.workingDirectory

/-- The place that a path names. All but the last step have to be there. -/
def locate (s : Store) (p : Path) : Except FileError (List String) :=
  if p.text.isEmpty then .error .notFound
  else p.names.foldlM s.step (s.startOf p)

/-! ## Reading and writing -/

def readBytes (s : Store) (p : Path) : Except FileError ByteArray := do
  let place ← s.locate p
  match s.get? place with
  | none => throw .notFound
  | some .directory => throw .isDirectory
  | some entry =>
    if p.endsInSlash then throw .notDirectory
    match entry with
    | .bytes content => return content
    | .figure drawn => return (Plot.Svg.document drawn).toUTF8
    | .directory => throw .isDirectory

def readText (s : Store) (p : Path) : Except FileError String := do
  match String.fromUTF8? (← s.readBytes p) with
  | some text => return text
  | none => throw .notUnicode

/-- The figure that was written to a file. -/
def figure? (s : Store) (p : Path) : Option Plot.Figure :=
  match s.locate p with
  | .error _ => none
  | .ok place =>
    match s.get? place with
    | some (.figure drawn) => some drawn
    | _ => none

/-- Writes a file in a directory that is there already. -/
def write (s : Store) (p : Path) (entry : Entry) : Except FileError Store := do
  let place ← s.locate p
  match s.get? place.dropLast with
  | none => throw .notFound
  | some .directory =>
    match s.get? place with
    | some .directory => throw .isDirectory
    | some _ => if p.endsInSlash then throw .notDirectory else return s.set place entry
    | none => if p.endsInSlash then throw .isDirectory else return s.set place entry
  | some _ => throw .notDirectory

/-- Adds a directory unless the place is taken. -/
def ensureDirectory (s : Store) (place : List String) : Store :=
  if (s.get? place).isSome then s else s.set place .directory

/-- Adds a directory and all directories above it. -/
def makeDirectories (s : Store) (place : List String) : Store :=
  ((List.range place.length).map fun n => place.take (n + 1)).foldl ensureDirectory s

/-- Makes a place the working directory, with all directories above it. -/
def enter (s : Store) (place : List String) : Store :=
  { s.makeDirectories place with workingDirectory := place }

/-- Puts an entry at a path, with all directories above it. -/
def create (s : Store) (p : Path) (entry : Entry) : Store :=
  let place := s.startOf p ++ p.names
  (s.makeDirectories place.dropLast).set place entry

def remove (s : Store) (p : Path) : Store :=
  s.erase (s.startOf p ++ p.names)

end Store

end GrowthCurve
