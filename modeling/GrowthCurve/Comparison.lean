import GrowthCurve.Settings.Basic
import GrowthCurve.Viewer

/-!
# Comparison of result files

The times of several result files in one panel, each with a colour and a label
of its own. All files have to be readable.
-/

namespace GrowthCurve.Comparison

open Plot (Panel Curve Colour)

/-- Why files cannot be compared, whatever they hold. -/
inductive Fault where
  | settings (fault : SettingsFault)
  | tooFewFiles (count : Nat)
  | labelCount (labels files : Nat)
deriving Repr, DecidableEq

def Fault.message : Fault → String
  | .settings fault => fault.message
  | .tooFewFiles n => "comparison needs at least two result files, got " ++ toString n
  | .labelCount labels files =>
    toString labels ++ " labels given for " ++ toString files ++ " result files"

/-- The first reason why a number of files cannot be compared. -/
def fault? (settings : ComparisonSettings) (files : Nat) : Option Fault :=
  match settings.fault? with
  | some fault => some (.settings fault)
  | none =>
    if files < 2 then some (.tooFewFiles files)
    else if settings.labels ≠ [] ∧ settings.labels.length ≠ files then
      some (.labelCount settings.labels.length files)
    else none

def curve (labels : List String) (s : Series) (index : Nat) : Curve Float :=
  ⟨s.xs, s.times, .solid, Colour.ofIndex index, labels.getD index s.label, none⟩

/-- One curve a file, in order. -/
def panel (series : List Series) (labels : List String) (axes : AxisLabels) : Panel Float where
  xLabel := axes.input
  yLabel := axes.time
  title := none
  legend := true
  curves := series.zipIdx.map fun (s, i) => curve labels s i

variable {m : Type → Type} [Monad m]

/-- Compares result files. The viewer gets a figure if all of them can be read. -/
def run (read : FileReader m) (viewer : Viewer m) (paths : List Path)
    (settings : ComparisonSettings) : ExceptT Error m (List Series) := do
  if let some fault := fault? settings paths.length then
    throw (.config fault.message)
  let series ← Series.loadAll read paths
  viewer.render [panel series settings.labels settings.axes] settings.figure
  return series

end GrowthCurve.Comparison
