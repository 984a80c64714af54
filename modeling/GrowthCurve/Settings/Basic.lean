import GrowthCurve.Fit.Text
import GrowthCurve.Plot.Figure

/-!
# Settings

What can be chosen for an analysis and for a comparison. Degrees are 64-bit
words; a fit takes them as signed numbers, so that the upper half of them is
below zero there.
-/

namespace GrowthCurve

open Plot (FigureSize)

structure AxisLabels where
  input : String := "Input length"
  time : String := "Simulation runtime (s)"
  derivative : String := "dt/dn (s)"
deriving Repr, DecidableEq, Inhabited

structure AnalysisSettings where
  timeDegree : UInt64 := 1
  /-- Without a choice, one less than the degree of the time fit. -/
  derivativeDegree : Option UInt64 := none
  /-- Derivatives at or above it are fitted but not drawn. -/
  displayCeiling : Option Float := some 5
  labels : AxisLabels := {}
  figure : FigureSize := {}
deriving Repr, DecidableEq, Inhabited

structure ComparisonSettings where
  /-- One label a file, or none for the names of the files. -/
  labels : List String := []
  axes : AxisLabels := {}
  figure : FigureSize := {}
deriving Repr, DecidableEq, Inhabited

/-- The settings that a file can hold. -/
structure Settings where
  analyze : AnalysisSettings := {}
  compare : ComparisonSettings := {}
deriving Repr, DecidableEq, Inhabited

/-- A degree as a fit takes it. -/
def signedDegree (degree : UInt64) : Int :=
  degree.toInt64.toInt

/-! ## Limits -/

inductive SettingsFault where
  | endlessCeiling (ceiling : Float)
  | smallPanel (width height : UInt32)
  | noFontSize
deriving Repr, DecidableEq

def SettingsFault.message : SettingsFault → String
  | .endlessCeiling c => "display_ceiling must be finite, got " ++ Decimal.plain c
  | .smallPanel w h =>
    "panel size must be at least 100x100, got " ++ toString w.toNat ++ "x" ++ toString h.toNat
  | .noFontSize => "font_size must be positive"

def Plot.FigureSize.fault? (size : FigureSize) : Option SettingsFault :=
  if size.panelWidth < 100 || size.panelHeight < 100 then
    some (.smallPanel size.panelWidth size.panelHeight)
  else if size.fontSize = 0 then some .noFontSize
  else none

namespace AnalysisSettings

def ofModel (m : Model) : AnalysisSettings :=
  { timeDegree := UInt64.ofNat m.degree }

def effectiveDerivativeDegree (s : AnalysisSettings) : UInt64 :=
  s.derivativeDegree.getD (if s.timeDegree = 0 then 0 else s.timeDegree - 1)

def ceilingFault? (s : AnalysisSettings) : Option SettingsFault :=
  match s.displayCeiling with
  | some c => if c.isFinite then none else some (.endlessCeiling c)
  | none => none

def fault? (s : AnalysisSettings) : Option SettingsFault :=
  s.ceilingFault? <|> s.figure.fault?

end AnalysisSettings

def ComparisonSettings.fault? (s : ComparisonSettings) : Option SettingsFault :=
  s.figure.fault?

end GrowthCurve
