import GrowthCurve.Plot.Sketch
import GrowthCurve.Binary

/-!
# Figures

A figure is a row of frames in whole pixels: the plot areas of its panels with
their lines, captions and legends. Pixel sizes are 32-bit words, and a drawing
whose sizes are no words halts.
-/

namespace GrowthCurve.Plot

/-- Sizes in pixels, per panel. -/
structure FigureSize where
  panelWidth : UInt32 := 750
  panelHeight : UInt32 := 500
  fontSize : UInt32 := 16
deriving Repr, DecidableEq, Inhabited

/-- A point of a figure, in pixels from the upper left corner. -/
structure Pixel where
  x : Int
  y : Int
deriving Repr, DecidableEq

structure PixelLine where
  colour : Colour
  points : List Pixel
deriving Repr, DecidableEq

structure LegendEntry where
  colour : Colour
  label : String
deriving Repr, DecidableEq

/-- The plot area of one panel: the pixels of its lower left and upper right corner. -/
structure PlotArea where
  left : Int
  right : Int
  bottom : Int
  top : Int
deriving Repr, DecidableEq

structure Frame where
  area : PlotArea
  title : Option String
  xLabel : String
  yLabel : String
  lines : List PixelLine
  legend : Option (List LegendEntry)
deriving Repr, DecidableEq

structure Figure where
  width : UInt32
  height : UInt32
  fontSize : UInt32
  frames : List Frame
deriving Repr, DecidableEq

/-- Why a drawing never hands over a figure. A drawing that halts has nothing to
tell about it. -/
inductive Halt where
  /-- A size is computed that is no word. -/
  | overflow
  /-- The dashes of a curve do not come to an end. -/
  | endlessDashes
deriving Repr, DecidableEq

/-- A computed size as a word. -/
def word (n : Nat) : Except Halt UInt32 :=
  if n < UInt32.size then .ok (UInt32.ofNat n) else .error .overflow

/-! ## From numbers to pixels -/

/-- Whole pixels have 31 bits and a sign; what lies beyond stays at the edge. -/
def clampPixel (n : Int) : Int :=
  max (-Nat.pow 2 31) (min (Nat.pow 2 31 - 1) n)

/-- A number of pixels, rounded as told. NaN is no distance at all. -/
def wholePixels (rounding : Binary → Int) (x : Float) : Int :=
  match Binary.ofFloat? x with
  | some b => clampPixel (rounding b)
  | none => if x.isNaN then 0 else if x < 0 then -Nat.pow 2 31 else Nat.pow 2 31 - 1

/-- Keeps a hair of slack so that a point on a pixel boundary falls on it. -/
def slack : Float := 0.001

/-- Where a value of an axis falls between two pixels. Infinitely far values
fall on the ends. -/
def project (start stop : Int) (range : Range Float) (value : Float) : Int :=
  let part := (value - range.start) / (range.stop - range.start)
  let length := stop - start
  if length = 0 then stop
  else if part.isInf then if part < 0 then start else stop
  else
    let distance := Float.ofInt length * part
    let moved :=
      if 0 < length then wholePixels Binary.floor (distance + slack)
      else wholePixels Binary.ceil (distance - slack)
    Int.bmod (start + moved) UInt32.size

def PlotArea.pixel (area : PlotArea) (xRange yRange : Range Float) (p : Float × Float) : Pixel :=
  ⟨project area.left area.right xRange p.1, project area.bottom area.top yRange p.2⟩

/-! ## Layout -/

def margin : Int := 20
def xAxisHeight : Int := 50
def yAxisWidth : Int := 80

/-- Titles are set four pixels larger than the rest. -/
def titleFont (size : FigureSize) : Except Halt UInt32 :=
  word (size.fontSize.toNat + 4)

/-- The height that a title in this font takes from the plot area. -/
def titleHeight (font : UInt32) : Int :=
  let em := font.toFloat / 1.24 / 1.24
  let nearest (x : Float) : Int := wholePixels (fun b => b.round.floor) x
  let h := nearest em + nearest (0.24 * em)
  h + 2 * min (h / 2) 5

/-- The height that is taken from the plot area of a panel, if it has a title. -/
def Panel.headHeight (size : FigureSize) (p : Panel Float) : Except Halt Int :=
  match p.title with
  | none => .ok 0
  | some _ => (titleFont size).map titleHeight

/-- Where column `k` of `n` begins in a row of pixels; the first columns take
what the division leaves over. -/
def columnStart (width n k : Nat) : Nat :=
  k * (width / n) + min k (width % n)

/-- The plot area of column `k` of `n`, below a head of some height. -/
def plotArea (size : FigureSize) (width : UInt32) (n k : Nat) (head : Int) : PlotArea where
  left := (columnStart width.toNat n k : Int) + margin + yAxisWidth
  right := (columnStart width.toNat n (k + 1) : Int) - margin - 1
  bottom := (size.panelHeight.toNat : Int) - margin - xAxisHeight - 1
  top := margin + head

/-- The width of panels side by side. Their number is counted in a word. -/
def figureWidth (size : FigureSize) (panels : Nat) : Except Halt UInt32 :=
  word (size.panelWidth.toNat * (UInt32.ofNat panels).toNat)

def Curve.legendEntry (c : Curve Float) : LegendEntry :=
  ⟨c.colour, c.label⟩

/-- A panel without curves has no legend. -/
def Panel.legendEntries? (p : Panel Float) : Option (List LegendEntry) :=
  if p.legend && !p.curves.isEmpty then some (p.curves.map Curve.legendEntry) else none

/-- The lines of a sketch in whole pixels, with the captions of its panel. -/
def Panel.frameOf (p : Panel Float) (area : PlotArea) (s : Sketch Float) : Frame where
  area := area
  title := p.title
  xLabel := p.xLabel
  yLabel := p.yLabel
  lines := s.strokes.map fun stroke =>
    ⟨stroke.colour, stroke.points.map (area.pixel s.xRange s.yRange)⟩
  legend := p.legendEntries?

/-- Draws column `k` of `n`. The title is set before the curves are drawn. -/
def Panel.frame (size : FigureSize) (width : UInt32) (fuel n k : Nat) (p : Panel Float) :
    Except Halt Frame := do
  let head ← p.headHeight size
  match p.sketch fuel with
  | some s => return p.frameOf (plotArea size width n k head) s
  | none => throw .endlessDashes

/-- Draws the frames from column `k` of `n` on. -/
def frames (size : FigureSize) (width : UInt32) (fuel n : Nat) :
    (k : Nat) → List (Panel Float) → Except Halt (List Frame)
  | _, [] => return []
  | k, p :: rest => do
    let f ← p.frame size width fuel n k
    let others ← frames size width fuel n (k + 1) rest
    return f :: others

/-- Lays panels out side by side. -/
def layOut (fuel : Nat) (panels : List (Panel Float)) (size : FigureSize) :
    Except Halt Figure := do
  let width ← figureWidth size panels.length
  let fs ← frames size width fuel panels.length 0 panels
  return ⟨width, size.panelHeight, size.fontSize, fs⟩

inductive DrawError where
  | panels (cause : PanelError)
  | halted (cause : Halt)
deriving Repr, DecidableEq

/-- Draws panels side by side, with at most `fuel` cuts for each point of a dashed curve. -/
def drawWith (fuel : Nat) (panels : List (Panel Float)) (size : FigureSize) :
    Except DrawError Figure :=
  match panelsFault? panels with
  | some e => .error (.panels e)
  | none => (layOut fuel panels size).mapError .halted

/-- Far more cuts than it takes to get from one point of a curve inside its axes to the next. -/
def cutLimit : Nat := 1000000

def draw (panels : List (Panel Float)) (size : FigureSize) : Except DrawError Figure :=
  drawWith cutLimit panels size

end GrowthCurve.Plot
