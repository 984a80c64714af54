import GrowthCurve.Error

/-!
# Files and viewers

An analysis reads its files from a reader and hands its figure to a viewer. Both
may act on a state or on the outside, and both may fail.
-/

namespace GrowthCurve

variable {m : Type → Type} [Monad m]

abbrev FileReader (m : Type → Type) := Path → ExceptT FileError m String

abbrev Viewer (m : Type → Type) := Plot.Figure → ExceptT Error m Unit

/-- The files of a store that nothing changes. -/
def Store.reader (s : Store) : FileReader m := fun path =>
  MonadExcept.ofExcept (s.readText path)

/-- The files of a store at the time of reading. -/
def Store.currentReader : FileReader (StateM Store) := fun path => do
  MonadExcept.ofExcept ((← get).readText path)

namespace Series

def load (read : FileReader m) (path : Path) : ExceptT Error m Series := do
  let text ← (read path).adapt (Error.file path)
  MonadExcept.ofExcept ((Series.read path text).mapError (Error.ofMalformed path))

/-- Loads result files in order, up to the first that cannot be read. -/
def loadAll (read : FileReader m) : List Path → ExceptT Error m (List Series)
  | [] => return []
  | path :: rest => do
    let s ← load read path
    let others ← loadAll read rest
    return s :: others

end Series

namespace Viewer

/-- Keeps every figure, the last one at the end. -/
def gallery : Viewer (StateM (List Plot.Figure)) := fun figure =>
  modify (· ++ [figure])

/-- Writes the figure to a file of a store. -/
def file (path : Path) : Viewer (StateM Store) := fun figure => do
  match (← get).write path (.figure figure) with
  | .ok store => set store
  | .error e => throw (.file path e)

def render (viewer : Viewer m) (panels : List (Plot.Panel Float)) (size : Plot.FigureSize) :
    ExceptT Error m Unit := do
  let figure ← MonadExcept.ofExcept ((Plot.draw panels size).mapError Error.ofDrawError)
  viewer figure

end Viewer

end GrowthCurve
