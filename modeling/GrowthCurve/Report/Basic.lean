import GrowthCurve.Fit.Text
import GrowthCurve.Path

/-!
# Reports

What an analysis tells about its fits, in words. If one of two fits fails, the
lines of the other one are told all the same.
-/

namespace GrowthCurve

structure FitSummary where
  degree : Nat
  coefficients : List Float
  rSquared : Float
  equation : String
deriving Repr, DecidableEq

structure Report where
  source : String
  samples : Nat
  timeFit : FitSummary
  derivativeFit : Option FitSummary
deriving Repr, DecidableEq

def FitSummary.ofFit (f : Fit Float) : FitSummary :=
  ⟨f.degree, f.coefficients, f.rSquared, f.equation⟩

def FitSummary.lines (name : String) (s : FitSummary) : String :=
  name ++ " fit (degree " ++ toString s.degree ++ "): r^2 = " ++ Decimal.fixed 6 s.rSquared ++
    "\n  " ++ s.equation ++ "\n"

/-- The lines on the fits that there are. -/
def summaryLines (time derivative : Option FitSummary) : String :=
  (time.map (FitSummary.lines "time")).getD "" ++
    (derivative.map (FitSummary.lines "derivative")).getD ""

def partialReport (time derivative : Option (Fit Float)) : String :=
  summaryLines (time.map FitSummary.ofFit) (derivative.map FitSummary.ofFit)

namespace Report

def ofFits (source : Path) (samples : Nat) (time : Fit Float) (derivative : Option (Fit Float)) :
    Report :=
  ⟨source.text, samples, .ofFit time, derivative.map FitSummary.ofFit⟩

def text (r : Report) : String :=
  r.source ++ " (" ++ toString r.samples ++ " samples)\n" ++
    summaryLines (some r.timeFit) r.derivativeFit

end Report

end GrowthCurve
