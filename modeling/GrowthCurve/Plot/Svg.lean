import GrowthCurve.Plot.Figure

/-!
# Figures as SVG documents
-/

namespace GrowthCurve.Plot.Svg

/-- A character inside the text of an element or an attribute. -/
def escape : Char → String
  | '&' => "&amp;"
  | '<' => "&lt;"
  | '>' => "&gt;"
  | '"' => "&quot;"
  | '\'' => "&apos;"
  | c => String.singleton c

def escaped (s : String) : String :=
  String.join (s.toList.map escape)

/-- Two upper-case hexadecimal digits. -/
def byte (n : UInt8) : String :=
  let digits := (String.ofList (Nat.toDigits 16 n.toNat)).toUpper
  if digits.length < 2 then "0" ++ digits else digits

/-- A colour as `#RRGGBB`. -/
def colour (c : Colour) : String :=
  "#" ++ byte c.red ++ byte c.green ++ byte c.blue

def field (name value : String) : String :=
  " " ++ name ++ "=\"" ++ escaped value ++ "\""

def element (name : String) (attributes : List (String × String)) (body : String) : String :=
  "<" ++ name ++ String.join (attributes.map fun a => field a.1 a.2) ++
    (if body.isEmpty then "/>\n" else ">" ++ body ++ "</" ++ name ++ ">\n")

/-- The points of a line as `x,y x,y`. -/
def points (ps : List Pixel) : String :=
  " ".intercalate (ps.map fun p => toString p.x ++ "," ++ toString p.y)

def polyline (stroke : String) (width : Nat) (ps : List Pixel) : String :=
  element "polyline" [("fill", "none"), ("stroke", stroke), ("stroke-width", toString width),
    ("points", points ps)] ""

def text (fontSize : Nat) (anchor : String) (x y : Int) (body : String) : String :=
  element "text" [("x", toString x), ("y", toString y), ("text-anchor", anchor),
    ("font-family", "sans-serif"), ("font-size", toString fontSize), ("fill", "#000000")]
    (escaped body)

def axes (area : PlotArea) : String :=
  polyline "#000000" 1
    [⟨area.left, area.top⟩, ⟨area.left, area.bottom⟩, ⟨area.right, area.bottom⟩]

def captions (fontSize : Nat) (f : Frame) : String :=
  let middle := (f.area.left + f.area.right) / 2
  let title := match f.title with
    | some t => text (fontSize + 4) "middle" middle (f.area.top - 5) t
    | none => ""
  title ++ text fontSize "middle" middle (f.area.bottom + 40) f.xLabel ++
    text fontSize "start" (f.area.left - 70) (f.area.top - 5) f.yLabel

/-- A legend in the upper left corner of the plot area. -/
def legend (fontSize : Nat) (area : PlotArea) (entries : List LegendEntry) : String :=
  String.join (entries.zipIdx.map fun (e, i) =>
    let y := area.top + 10 + (i : Int) * (fontSize + 6)
    polyline (colour e.colour) 2 [⟨area.left + 10, y⟩, ⟨area.left + 34, y⟩] ++
      text fontSize "start" (area.left + 40) (y + 5) e.label)

def frame (fontSize : Nat) (f : Frame) : String :=
  axes f.area ++ captions fontSize f ++
    String.join (f.lines.map fun l => polyline (colour l.colour) 2 l.points) ++
    (match f.legend with
      | some entries => legend fontSize f.area entries
      | none => "")

/-- The name of the vocabulary of SVG, by which viewers know the document. -/
def vocabulary : String :=
  "http://www.w3.org/2000/svg"

def document (f : Figure) : String :=
  let width := toString f.width.toNat
  let height := toString f.height.toNat
  "<svg" ++ field "width" width ++ field "height" height ++
    field "viewBox" ("0 0 " ++ width ++ " " ++ height) ++
    field "xmlns" vocabulary ++ ">\n" ++
    element "rect" [("x", "0"), ("y", "0"), ("width", width), ("height", height),
      ("fill", "#FFFFFF"), ("stroke", "none")] "" ++
    String.join (f.frames.map (frame f.fontSize.toNat)) ++ "</svg>\n"

end GrowthCurve.Plot.Svg
