import GrowthCurve.Fit.Error
import GrowthCurve.Path
import GrowthCurve.Store
import GrowthCurve.Sample.Series
import GrowthCurve.Decimal.Layout

/-!
# Errors

What can go wrong between a result file and its figure. Every error that is told
names the file, the line or the value that it is about.
-/

namespace GrowthCurve

inductive Error where
  | malformedRecord (path : Path) (line : Nat) (reason : String)
  | fit (cause : FitError Float)
  | invalidPanels (reason : String)
  | rendering (reason : String)
  | config (reason : String)
  | file (path : Path) (cause : FileError)
  /-- The run does not come back from its drawing and tells nothing more. -/
  | halted (cause : Plot.Halt)
deriving Repr, DecidableEq

def FitError.message : FitError Float → String
  | .invalidDegree d => "Invalid polynomial degree: " ++ toString d ++ " (must be >= 0)"
  | .lengthMismatch xs ys =>
    "Sample length mismatch: " ++ toString xs ++ " x values, " ++ toString ys ++ " y values"
  | .insufficientData required actual =>
    "Insufficient data: need at least " ++ toString required ++ " samples, got " ++ toString actual
  | .degenerate target residual =>
    "Degenerate fit: target series is constant (" ++ Decimal.plain target ++
      ") but the model deviates by " ++ Decimal.plain residual

namespace Error

/-- What is told of an error. Nobody is left to tell that a run has halted. -/
def message : Error → String
  | .malformedRecord path line reason =>
    path.text ++ ":" ++ toString line ++ ": malformed record: " ++ reason
  | .fit cause => cause.message
  | .invalidPanels reason => "Invalid plot spec: " ++ reason
  | .rendering reason => "Rendering failed: " ++ reason
  | .config reason => "Invalid configuration: " ++ reason
  | .file path cause => path.text ++ ": " ++ cause.message
  | .halted _ => ""

/-- The drawing that a run did not come back from. -/
def halt? : Error → Option Plot.Halt
  | .halted cause => some cause
  | _ => none

/-- The further cause that a message does not replace. -/
def cause? : Error → Option String
  | .file _ cause => some cause.message
  | _ => none

def ofMalformed (path : Path) (m : Series.Malformed) : Error :=
  .malformedRecord path m.line m.cause.message

def ofDrawError : Plot.DrawError → Error
  | .panels cause => .invalidPanels cause.message
  | .halted cause => .halted cause

end Error

end GrowthCurve
