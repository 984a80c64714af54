import GrowthCurve.Scalar

/-!
# Panels

A figure is a row of panels, and a panel a set of labelled curves over common
axes. A curve can have a ceiling: samples at or above it are kept but not shown.
-/

namespace GrowthCurve.Plot

structure Colour where
  red : UInt8
  green : UInt8
  blue : UInt8
deriving Repr, DecidableEq, Inhabited

namespace Colour

def blueTone : Colour := ⟨31, 119, 180⟩
def redTone : Colour := ⟨214, 39, 40⟩

/-- The colours of compared curves, in order. -/
def palette : List Colour :=
  [blueTone, redTone, ⟨44, 160, 44⟩, ⟨255, 127, 14⟩, ⟨148, 103, 189⟩, ⟨140, 86, 75⟩,
   ⟨227, 119, 194⟩, ⟨127, 127, 127⟩]

/-- The colour of the curve with a given index; the palette is used again from its start. -/
def ofIndex (index : Nat) : Colour :=
  palette.getD (index % palette.length) blueTone

end Colour

/-- Measured data is drawn solid and fitted curves dashed. -/
inductive Line where
  | solid
  | dashed
deriving Repr, DecidableEq

structure Curve (α : Type) where
  xs : List α
  ys : List α
  line : Line
  colour : Colour
  label : String
  ceiling : Option α
deriving Repr

structure Panel (α : Type) where
  xLabel : String
  yLabel : String
  title : Option String
  legend : Bool
  curves : List (Curve α)
deriving Repr

variable {α : Type} [Scalar α]

/-- A sample with this value is shown under the ceiling. -/
def isShown (ceiling : Option α) (y : α) : Bool :=
  match ceiling with
  | none => true
  | some c => Scalar.less y c

/-- The points of two columns that are shown under the ceiling. -/
def visiblePoints (xs ys : List α) (ceiling : Option α) : List (α × α) :=
  (xs.zip ys).filter fun p => isShown ceiling p.2

namespace Curve

def visible (c : Curve α) : List (α × α) :=
  visiblePoints c.xs c.ys c.ceiling

end Curve

inductive PanelError where
  | noPanel
  | unpaired (label : String) (xs ys : Nat)
deriving Repr, DecidableEq

def PanelError.message : PanelError → String
  | .noPanel => "a figure needs at least one panel"
  | .unpaired label xs ys =>
    "series '" ++ label ++ "' has " ++ toString xs ++ " x values but " ++ toString ys ++ " y values"

/-- The first curve whose columns differ in length. -/
def Panel.fault? {α : Type} (p : Panel α) : Option PanelError :=
  (p.curves.find? fun c => c.xs.length ≠ c.ys.length).map fun c =>
    .unpaired c.label c.xs.length c.ys.length

/-- What keeps a row of panels from being drawn. -/
def panelsFault? {α : Type} (panels : List (Panel α)) : Option PanelError :=
  if panels.isEmpty then some .noPanel else panels.findSome? Panel.fault?

end GrowthCurve.Plot
