import GrowthCurve.CommandLine.Run
import GrowthCurve.Polynomial.Rotations

/-!
# The program

Runs the command line on the files and streams of the system.
-/

namespace GrowthCurve

def fileErrorOf : IO.Error → FileError
  | .noFileOrDirectory _ _ _ => .notFound
  | .inappropriateType _ _ _ => .isDirectory
  | e => .other (toString e)

def attemptFile {α : Type} (access : IO α) : ExceptT FileError IO α := do
  match ← access.toBaseIO with
  | .ok a => return a
  | .error e => throw (fileErrorOf e)

def textOfBytes (bytes : ByteArray) : ExceptT FileError IO String :=
  match String.fromUTF8? bytes with
  | some s => return s
  | none => throw .notUnicode

/-- The bytes of a line of a stream. -/
partial def readLineBytes (stream : IO.FS.Stream) (line : ByteArray) : IO ByteArray := do
  let next ← stream.read 1
  if next.isEmpty then return line
  let line := line ++ next
  if next.toList = [10] then return line else readLineBytes stream line

/-- Writes a text to a stream at once. -/
def writeNow (stream : IO.FS.Stream) (text : String) : IO Unit := do
  stream.putStr text
  stream.flush

/-- The system as the surroundings of a run, with a log that stays empty. -/
def systemHost : Host IO where
  readText path := do
    textOfBytes (← attemptFile (IO.FS.readBinFile path.text))
  writeFigure path figure := attemptFile (IO.FS.writeFile path.text (Plot.Svg.document figure))
  print text := do writeNow (← IO.getStdout) text
  printError text := do writeNow (← IO.getStderr) text
  readLine := do
    textOfBytes (← attemptFile (do readLineBytes (← IO.getStdin) ByteArray.empty))
  startLog := return ()

/-- Goes on for ever, as dashes without an end do. -/
partial def goOn : IO UInt32 := do
  IO.sleep 1000
  goOn

/-- The exit status of a run that halted, if it comes to an end. -/
def statusOfHalt : Plot.Halt → IO UInt32
  | .overflow => return 101
  | .endlessDashes => goOn

end GrowthCurve

def main (args : List String) : IO UInt32 := do
  match ← GrowthCurve.CommandLine.run GrowthCurve.Polynomial.Rotations.solve
    GrowthCurve.systemHost args with
  | .ok status => return status
  | .error cause => GrowthCurve.statusOfHalt cause
