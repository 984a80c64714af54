import GrowthCurve.Plot.Panel
import GrowthCurve.Plot.Axis
import GrowthCurve.Plot.Dash

/-!
# Sketches

A sketch is a panel reduced to the lines that are drawn, in the coordinates of
the data, together with its axes. Only visible points enter it.
-/

namespace GrowthCurve.Plot

variable {α : Type} [Scalar α]

structure Stroke (α : Type) where
  colour : Colour
  points : List (α × α)
deriving Repr

/-- The axes and lines of one panel, in drawing order. -/
structure Sketch (α : Type) where
  xRange : Range α
  yRange : Range α
  strokes : List (Stroke α)
deriving Repr

/-- Lengths of dashes and gaps, as parts of the axes. -/
def axisDashes (xRange yRange : Range α) : DashPattern α where
  dash := OfScientific.ofScientific 2 true 2
  gap := OfScientific.ofScientific 12 true 3
  spans := (xRange.span, yRange.span)

/-- The lines of one curve. A solid curve is a single line through its visible
points, if it has any. A dashed one may take `fuel` cuts for each of its points. -/
def Curve.lines (d : DashPattern α) (fuel : Nat) (c : Curve α) :
    Option (List (List (α × α))) :=
  match c.line with
  | .solid => some (if c.visible.isEmpty then [] else [c.visible])
  | .dashed => dashPieces d (fuel * c.visible.length) c.visible

def Curve.strokes (d : DashPattern α) (fuel : Nat) (c : Curve α) : Option (List (Stroke α)) :=
  (c.lines d fuel).map fun lines => lines.map (Stroke.mk c.colour)

def allStrokes (d : DashPattern α) (fuel : Nat) : List (Curve α) → Option (List (Stroke α))
  | [] => some []
  | c :: rest =>
    match c.strokes d fuel, allStrokes d fuel rest with
    | some s, some others => some (s ++ others)
    | _, _ => none

/-- The points of all curves that are shown. -/
def Panel.visible (p : Panel α) : List (α × α) :=
  p.curves.flatMap Curve.visible

/-- The sketch of a panel, or nothing if a dashed curve takes more cuts than
the fuel allows. -/
def Panel.sketch (fuel : Nat) (p : Panel α) : Option (Sketch α) :=
  let axes := axisRanges p.visible
  (allStrokes (axisDashes axes.1 axes.2) fuel p.curves).map (Sketch.mk axes.1 axes.2)

end GrowthCurve.Plot
