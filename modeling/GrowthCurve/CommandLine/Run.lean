import GrowthCurve.Analysis
import GrowthCurve.Comparison
import GrowthCurve.CommandLine.Arguments
import GrowthCurve.Report.Document
import GrowthCurve.Settings.Document
import GrowthCurve.Terminal

/-!
# Runs of the program

A run reads the settings file, lets options of the command line replace what it
says, and analyses or compares. The report goes to the output stream; prompts
and errors go to the error stream, and a log if there is to be one. A run that
fails exits with `1`, one that is not understood with `2`, and one that halts in
its drawing has no exit status of its own.
-/

namespace GrowthCurve.CommandLine

/-- What a run failed at, and why. -/
structure Failure where
  context : String
  cause : Error
deriving Repr, DecidableEq

namespace Failure

/-- Sets the lines of a text one below the other behind a head. -/
def indent (head : String) (text : String) : String :=
  let pad := String.ofList (List.replicate head.length ' ')
  head ++ String.join
    (text.toList.map fun c => if c = '\n' then "\n" ++ pad else String.singleton c)

/-- The cause, and below it the further cause if there is one. -/
def causes (e : Error) : String :=
  match e.cause? with
  | none => indent "    " e.message
  | some further => indent "    0: " e.message ++ "\n" ++ indent "    1: " further

def message (f : Failure) : String :=
  "Error: " ++ f.context ++ "\n\nCaused by:\n" ++ causes f.cause ++ "\n"

end Failure

def readDegree (option : String) (degree : Int) : Except Failure UInt64 :=
  if degree < 0 then .error ⟨"Invalid value for " ++ option, .fit (.invalidDegree degree)⟩
  else .ok (UInt64.ofNat degree.toNat)

namespace AnalyzeArguments

/-- The degree that an option gives, or else the one that is set already. -/
def degreeOr {α : Type} (option : String) (given : Option Int) (wrap : UInt64 → α) (base : α) :
    Except Failure α :=
  match given with
  | some d => (readDegree option d).map wrap
  | none => .ok base

/-- A model sets the degree of the time fit and takes back any choice for the derivative. -/
def withModel (model : Option Model) (base : AnalysisSettings) : AnalysisSettings :=
  match model with
  | some m => { base with timeDegree := UInt64.ofNat m.degree, derivativeDegree := none }
  | none => base

def ceilingOr (a : AnalyzeArguments) (base : Option Float) : Option Float :=
  if a.noClip then none
  else match a.ceiling with
    | some c => some c
    | none => base

def settings (a : AnalyzeArguments) (base : AnalysisSettings) :
    Except Failure AnalysisSettings := do
  let s := withModel a.model base
  let time ← degreeOr "--degree" a.degree id s.timeDegree
  let derivative ← degreeOr "--derivative-degree" a.derivativeDegree some s.derivativeDegree
  return { s with
    timeDegree := time
    derivativeDegree := derivative
    displayCeiling := a.ceilingOr s.displayCeiling }

end AnalyzeArguments

variable {m : Type → Type} [Monad m]

def FigureArguments.viewer (host : Host m) (f : FigureArguments) : Viewer m :=
  if f.noWait then host.fileViewer f.output else host.waitingViewer f.output

/-- Writes what there is of a report when a fit has failed. Only a report in
words may be incomplete on the output stream. -/
def printPartial (host : Host m) (format : Format) (text : String) : m Unit :=
  match format with
  | .text => host.print text
  | .json => host.printError text

def Format.write (format : Format) (r : Report) : String :=
  match format with
  | .text => r.text
  | .json => r.toJson ++ "\n"

def runAnalyze (solve : Polynomial.Solver Float) (host : Host m) (base : AnalysisSettings)
    (a : AnalyzeArguments) : ExceptT Failure m Unit := do
  let settings ← MonadExcept.ofExcept (a.settings base)
  let context := "Failed to analyze " ++ a.input.text
  let analysis ← (Analysis.run solve host.readText (a.figure.viewer host) a.input settings).adapt
    (Failure.mk context)
  match analysis.report with
  | .ok r => host.print (a.format.write r)
  | .error e =>
    printPartial (m := m) host a.format analysis.partialText
    throw ⟨context, .fit e⟩

def comparedLine (s : Series) : String :=
  s.source.text ++ ": " ++ toString s.size ++ " samples\n"

/-- Labels of the command line replace those of the settings. -/
def CompareArguments.settings (c : CompareArguments) (base : ComparisonSettings) :
    ComparisonSettings :=
  if c.labels.isEmpty then base else { base with labels := c.labels }

def runCompare (host : Host m) (base : ComparisonSettings) (c : CompareArguments) :
    ExceptT Failure m Unit := do
  let comparison := Comparison.run host.readText (c.figure.viewer host) c.inputs (c.settings base)
  let series ← comparison.adapt (Failure.mk "Failed to compare benchmark results")
  host.print (String.join (series.map comparedLine))

def loadSettings (host : Host m) (path : Option Path) : ExceptT Failure m Settings :=
  match path with
  | none => return {}
  | some path =>
    (Settings.load host.readText path).adapt (Failure.mk ("Failed to load config " ++ path.text))

def runArguments (solve : Polynomial.Solver Float) (host : Host m) (a : Arguments) :
    ExceptT Failure m Unit := do
  if a.common.debug then
    host.startLog
  let settings ← loadSettings host a.common.config
  match a.command with
  | .analyze arguments => runAnalyze solve host settings.analyze arguments
  | .compare arguments => runCompare host settings.compare arguments

/-! ## Usage -/

def usage : String :=
  "Polynomial complexity fitting and comparison plots for benchmark results\n\n" ++
    "Usage: benchfit [--debug] [--config <FILE>] <COMMAND>\n\n" ++
    "Commands:\n" ++
    "  analyze <FILE>          fit one result file\n" ++
    "  compare <FILE> <FILE>…  draw several result files together\n" ++
    "  help                    print this text\n\n" ++
    "Options of both commands:\n" ++
    "  -o, --output <FILE>     where the figure goes [benchfit.svg]\n" ++
    "      --no-wait           do not wait after the figure is written\n\n" ++
    "Options of analyze:\n" ++
    "  -m, --model <MODEL>     linear or cubic\n" ++
    "  -d, --degree <N>        degree of the time fit\n" ++
    "      --derivative-degree <N>\n" ++
    "                          degree of the derivative fit\n" ++
    "      --ceiling <VALUE>   hide derivatives from this value on\n" ++
    "      --no-clip           hide no derivatives\n" ++
    "      --format <FORMAT>   text or json\n\n" ++
    "Options of compare:\n" ++
    "  -l, --label <NAME>      label of the next file\n"

def versionLine : String := "benchfit 0.1.0\n"

def UsageError.message : UsageError → String
  | .invalidValue => "a value is missing or not possible"
  | .unreadableValue => "a value cannot be read"
  | .tooManyValues => "an option takes no value"
  | .tooFewValues => "there are too few values"
  | .unknownArgument => "an argument is not known"
  | .unknownCommand => "the command is not known"
  | .missingCommand => "a command is needed"
  | .missingOperand => "a file is needed"
  | .conflict => "two arguments exclude each other"
  | .helpWanted | .versionWanted | .nothingWanted => ""

/-- Answers a command line that asks for no run. -/
def answerUsage (host : Host m) : UsageError → m UInt32
  | .helpWanted => do
    host.print usage
    return 0
  | .versionWanted => do
    host.print versionLine
    return 0
  | .nothingWanted => do
    host.printError usage
    return 2
  | e => do
    host.printError ("error: " ++ e.message ++ "\n\nFor more information, try '--help'.\n")
    return 2

/-- Ends a run: a failure is told, and a drawing that halted is not. -/
def finish (host : Host m) : Except Failure Unit → m (Except Plot.Halt UInt32)
  | .ok () => return .ok 0
  | .error f =>
    match f.cause.halt? with
    | some cause => return .error cause
    | none => do
      host.printError f.message
      return .ok 1

/-- Runs the program on a command line. The answer is its exit status, unless it
halted. -/
def run (solve : Polynomial.Solver Float) (host : Host m) (args : List String) :
    m (Except Plot.Halt UInt32) := do
  match Arguments.read args with
  | .error e => return .ok (← answerUsage host e)
  | .ok a => finish host (← (runArguments solve host a).run)

end GrowthCurve.CommandLine
