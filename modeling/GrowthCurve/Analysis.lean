import GrowthCurve.Report.Basic
import GrowthCurve.Settings.Basic
import GrowthCurve.Viewer

/-!
# Analysis of one result file

The times are fitted, and the derivatives if the file has them, both with the
same linear solver. The two fits succeed or fail by themselves. As soon as one of
them succeeds there is a figure. Fits always see the whole file; a ceiling hides
derivatives only in the figure.
-/

namespace GrowthCurve

open Plot (Panel Curve Colour)

/-- What came of the fits of a series. -/
structure SeriesFits where
  time : Except (FitError Float) (Fit Float)
  /-- Nothing if the series has no derivatives. -/
  derivative : Option (Except (FitError Float) (Fit Float))

namespace SeriesFits

def ofSeries (solve : Polynomial.Solver Float) (s : Series) (settings : AnalysisSettings) :
    SeriesFits where
  time := Fit.computeWith solve s.xs s.times (signedDegree settings.timeDegree)
  derivative := s.derivatives.map fun ds =>
    Fit.computeWith solve s.xs ds (signedDegree settings.effectiveDerivativeDegree)

def time? (f : SeriesFits) : Option (Fit Float) :=
  f.time.toOption

def derivative? (f : SeriesFits) : Option (Fit Float) :=
  f.derivative.bind Except.toOption

def anySucceeded (f : SeriesFits) : Bool :=
  f.time?.isSome || f.derivative?.isSome

end SeriesFits

namespace Analysis

def measured (xs ys : List Float) (label : String) (ceiling : Option Float) : Curve Float :=
  ⟨xs, ys, .solid, Colour.blueTone, label, ceiling⟩

/-- The curve of a fit, which no ceiling hides. -/
def overlay (xs : List Float) (f : Fit Float) : Curve Float :=
  ⟨xs, f.predicted, .dashed, Colour.redTone, f.label, none⟩

/-- A panel with measured values and their fit. -/
def panel (xLabel yLabel : String) (xs : List Float) (raw : Curve Float)
    (fit : Option (Fit Float)) : Panel Float :=
  ⟨xLabel, yLabel, none, true, raw :: (fit.map (overlay xs)).toList⟩

def timePanel (s : Series) (fits : SeriesFits) (settings : AnalysisSettings) : Panel Float :=
  panel settings.labels.input settings.labels.time s.xs
    (measured s.xs s.times "Benchmark results" none) fits.time?

def derivativePanel (s : Series) (ds : List Float) (fits : SeriesFits)
    (settings : AnalysisSettings) : Panel Float :=
  panel settings.labels.input settings.labels.derivative s.xs
    (measured s.xs ds "Benchmark derivative" settings.displayCeiling) fits.derivative?

/-- One panel, or two if there are derivatives that a fit was tried on. -/
def panels (s : Series) (fits : SeriesFits) (settings : AnalysisSettings) : List (Panel Float) :=
  timePanel s fits settings ::
    match s.derivatives, fits.derivative with
    | some ds, some _ => [derivativePanel s ds fits settings]
    | _, _ => []

end Analysis

structure Analysis where
  source : Path
  samples : Nat
  fits : SeriesFits

namespace Analysis

/-- The lines on the fits that succeeded. -/
def partialText (a : Analysis) : String :=
  partialReport a.fits.time? a.fits.derivative?

/-- The full report. The first failed fit stands in its way. -/
def report (a : Analysis) : Except (FitError Float) Report :=
  match a.fits.time, a.fits.derivative with
  | .error e, _ => .error e
  | .ok _, some (.error e) => .error e
  | .ok time, some (.ok derivative) => .ok (.ofFits a.source a.samples time (some derivative))
  | .ok time, none => .ok (.ofFits a.source a.samples time none)

variable (solve : Polynomial.Solver Float)

def ofSeries (s : Series) (settings : AnalysisSettings) : Analysis :=
  ⟨s.source, s.size, .ofSeries solve s settings⟩

variable {m : Type → Type} [Monad m]

/-- Analyses a result file. If any fit succeeds, the viewer gets a figure.
Failed fits are part of the answer. -/
def run (read : FileReader m) (viewer : Viewer m) (path : Path) (settings : AnalysisSettings) :
    ExceptT Error m Analysis := do
  if let some fault := settings.fault? then
    throw (.config fault.message)
  let s ← Series.load read path
  let a := ofSeries solve s settings
  if a.fits.anySucceeded then
    viewer.render (panels s a.fits settings) settings.figure
  return a

def runReport (read : FileReader m) (viewer : Viewer m) (path : Path)
    (settings : AnalysisSettings) : ExceptT Error m Report := do
  let a ← run solve read viewer path settings
  MonadExcept.ofExcept (a.report.mapError .fit)

end Analysis

end GrowthCurve
