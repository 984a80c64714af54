import GrowthCurve.Viewer

/-!
# Terminals

What a run of the program can do to its surroundings, and a terminal as a value
that it can be done to. A viewer that waits asks on the error stream after it
has written a figure, and takes one line of the input for an answer.
-/

namespace GrowthCurve

structure Host (m : Type → Type) where
  readText : FileReader m
  writeFigure : Path → Plot.Figure → ExceptT FileError m Unit
  print : String → m Unit
  printError : String → m Unit
  /-- The next line of the input, empty at its end. -/
  readLine : ExceptT FileError m String
  /-- From now on the error stream also gets a log. -/
  startLog : m Unit

namespace Host

variable {m : Type → Type} [Monad m]

def fileViewer (host : Host m) (path : Path) : Viewer m := fun figure =>
  (host.writeFigure path figure).adapt (Error.file path)

/-- What is asked after a figure was written. -/
def prompt (path : Path) : String :=
  "Figure written to " ++ path.text ++ "; open it in a browser and press Enter to close.\n"

def inputName : Path := ⟨"<stdin>"⟩

/-- Writes figures to a file and waits for a line after each. -/
def waitingViewer (host : Host m) (path : Path) : Viewer m := fun figure => do
  host.fileViewer path figure
  host.printError (prompt path)
  let _ ← host.readLine.adapt (Error.file inputName)

end Host

/-- A terminal: files, the input and what was written to the two streams. The lines
of a log hold the time, so that of them it is only known whether there are any. -/
structure Terminal where
  store : Store
  input : List UInt8
  output : String := ""
  /-- What went to the error stream besides the log. -/
  errors : String := ""
  logging : Bool := false

namespace Terminal

/-- The next line of some bytes, with its line feed if it has one, and the rest. -/
def splitLine : List UInt8 → List UInt8 × List UInt8
  | [] => ([], [])
  | b :: rest =>
    if b = 10 then ([b], rest)
    else
      let (line, after) := splitLine rest
      (b :: line, after)

def textOf (bytes : List UInt8) : Except FileError String :=
  match String.fromUTF8? ⟨bytes.toArray⟩ with
  | some s => .ok s
  | none => .error .notUnicode

/-- Takes a line of the input, even if it is no text. -/
def takeLine (t : Terminal) : Except FileError String × Terminal :=
  let (line, rest) := splitLine t.input
  (textOf line, { t with input := rest })

def writeFigure (path : Path) (figure : Plot.Figure) (t : Terminal) :
    Except FileError Unit × Terminal :=
  match t.store.write path (.figure figure) with
  | .ok store => (.ok (), { t with store := store })
  | .error e => (.error e, t)

def host : Host (StateM Terminal) where
  readText path := fun t => (t.store.readText path, t)
  writeFigure path figure := fun t => t.writeFigure path figure
  print text := modify fun t => { t with output := t.output ++ text }
  printError text := modify fun t => { t with errors := t.errors ++ text }
  readLine := fun t => t.takeLine
  startLog := modify fun t => { t with logging := true }

end Terminal

end GrowthCurve
