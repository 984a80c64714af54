import GrowthCurve.Json.Reader
import GrowthCurve.Json.Writer
import GrowthCurve.Toml.Reader
import GrowthCurve.Settings.Basic
import GrowthCurve.Viewer

/-!
# Settings in documents

Settings are read from tables. A table replaces the settings that it names, at
every level, and leaves the others as they are by default.
-/

namespace GrowthCurve

open Plot (FigureSize)

/-! ## Reading -/

def AxisLabels.form : Form AxisLabels where
  start := {}
  fields :=
    [.of "input" false Decode.text fun v s => { s with input := v },
     .of "time" false Decode.text fun v s => { s with time := v },
     .of "derivative" false Decode.text fun v s => { s with derivative := v }]
  shortLists := true

def Plot.FigureSize.form : Form FigureSize where
  start := {}
  fields :=
    [.of "panel_width" false Decode.word fun v s => { s with panelWidth := v },
     .of "panel_height" false Decode.word fun v s => { s with panelHeight := v },
     .of "font_size" false Decode.word fun v s => { s with fontSize := v }]
  shortLists := true

def Decode.degree : Decoder UInt64 := fun d =>
  (Decode.size d).map UInt64.ofNat

def AnalysisSettings.form : Form AnalysisSettings where
  start := {}
  fields :=
    [.of "time_degree" false Decode.degree fun v s => { s with timeDegree := v },
     .of "derivative_degree" false (Decode.optional Decode.degree) fun v s =>
       { s with derivativeDegree := v },
     .of "display_ceiling" false (Decode.optional Decode.real) fun v s =>
       { s with displayCeiling := v },
     .of "labels" false AxisLabels.form.decode fun v s => { s with labels := v },
     .of "figure" false FigureSize.form.decode fun v s => { s with figure := v }]
  shortLists := true

def ComparisonSettings.form : Form ComparisonSettings where
  start := {}
  fields :=
    [.of "labels" false (Decode.list Decode.text) fun v s => { s with labels := v },
     .of "axes" false AxisLabels.form.decode fun v s => { s with axes := v },
     .of "figure" false FigureSize.form.decode fun v s => { s with figure := v }]
  shortLists := true

def Settings.form : Form Settings where
  start := {}
  fields :=
    [.of "analyze" false AnalysisSettings.form.decode fun v s => { s with analyze := v },
     .of "compare" false ComparisonSettings.form.decode fun v s => { s with compare := v }]
  shortLists := true

/-! ## Writing -/

def AxisLabels.toDocument (s : AxisLabels) : Document :=
  .ofEntries [("input", .text s.input), ("time", .text s.time), ("derivative", .text s.derivative)]

def Plot.FigureSize.toDocument (s : FigureSize) : Document :=
  .ofEntries
    [("panel_width", .integer s.panelWidth.toNat),
     ("panel_height", .integer s.panelHeight.toNat),
     ("font_size", .integer s.fontSize.toNat)]

/-- A value, or nothing. -/
def Document.ofOption {α : Type} (write : α → Document) : Option α → Document
  | some a => write a
  | none => .nothing

def AnalysisSettings.toDocument (s : AnalysisSettings) : Document :=
  .ofEntries
    [("time_degree", .integer s.timeDegree.toNat),
     ("derivative_degree", .ofOption (fun d => .integer d.toNat) s.derivativeDegree),
     ("display_ceiling", .ofOption .real s.displayCeiling),
     ("labels", s.labels.toDocument),
     ("figure", s.figure.toDocument)]

def ComparisonSettings.toDocument (s : ComparisonSettings) : Document :=
  .ofEntries
    [("labels", .ofItems (s.labels.map .text)),
     ("axes", s.axes.toDocument),
     ("figure", s.figure.toDocument)]

namespace Settings

def toDocument (s : Settings) : Document :=
  .ofEntries [("analyze", s.analyze.toDocument), ("compare", s.compare.toDocument)]

def toJson (s : Settings) : String :=
  Json.write .compact s.toDocument

def ofJson (text : String) : Except Fault Settings :=
  Json.decode form.decode text

def ofToml (text : String) : Except Fault Settings :=
  Toml.decode form.decode text

def faultMessage : Fault → String
  | .malformed => "the text does not follow the format of settings"
  | .mismatch => "a value has the wrong shape"
  | .unfinished => "the text ends too early"

def load {m : Type → Type} [Monad m] (read : FileReader m) (path : Path) :
    ExceptT Error m Settings := do
  let text ← (read path).adapt (Error.file path)
  MonadExcept.ofExcept ((ofToml text).mapError fun f => .config (faultMessage f))

end Settings

end GrowthCurve
