import Mathlib
import GrowthCurve.Settings.Document
import GrowthCurve.Proofs.Document.Tables

/-!
# Settings that are given in part

A patch names some of the settings, at every level, and leaves the others as
they are. A table stands for a patch if every setting that the patch names has
its value under its key once, and no other known key occurs. Reading the table
applies the patch to the settings that hold without one.
-/

namespace GrowthCurve

open Plot (FigureSize)

/-! ## Values of the right type -/

/-- What a value looks like in a document. -/
inductive IsText : String → Document → Prop where
  | text {s : String} : IsText s (.text s)

inductive IsWord : UInt32 → Document → Prop where
  | integer {n : UInt32} : IsWord n (.integer n.toNat)

inductive IsDegree : UInt64 → Document → Prop where
  | integer {n : UInt64} : IsDegree n (.integer n.toNat)

/-- A whole number stands for a real as well. -/
inductive IsReal : Float → Document → Prop where
  | real {x : Float} : IsReal x (.real x)
  | integer {n : Int} : IsReal (Float.ofInt n) (.integer n)

inductive IsTexts : List String → Document → Prop where
  | list {ss : List String} {ending : Ending} (whole : ending.fault? = none) :
      IsTexts ss (.list (ss.map .text) ending)

/-- No value may be given as nothing. -/
inductive IsOptional {α : Type} (Stands : α → Document → Prop) : Option α → Document → Prop where
  | nothing : IsOptional Stands none .nothing
  | value {a : α} {d : Document} (stands : Stands a d) : IsOptional Stands (some a) d

/-- A table whose entries give something. -/
inductive IsTable {α : Type} (Gives : α → List (String × Document) → Prop) :
    α → Document → Prop where
  | table {a : α} {entries : List (String × Document)} (gives : Gives a entries) :
      IsTable Gives a (.ofEntries entries)

theorem IsText.decode {s : String} {d : Document} (h : IsText s d) : Decode.text d = .ok s := by
  cases h
  rfl

theorem IsWord.decode {n : UInt32} {d : Document} (h : IsWord n d) : Decode.word d = .ok n := by
  cases h
  have hlt := n.toNat_lt
  have hrange : 0 ≤ (n.toNat : Int) ∧ (n.toNat : Int) ≤ (UInt32.size - 1 : ℕ) := by
    constructor
    · omega
    · show (n.toNat : Int) ≤ (2 ^ 32 - 1 : ℕ)
      omega
  refine Except.map_eq_ok_iff.mpr ⟨n.toNat, if_pos hrange, ?_⟩
  exact UInt32.ofNat_toNat

theorem IsDegree.decode {n : UInt64} {d : Document} (h : IsDegree n d) :
    Decode.degree d = .ok n := by
  cases h
  exact Except.map_eq_ok_iff.mpr ⟨n.toNat, Decode.size_integer n.toNat_lt, UInt64.ofNat_toNat⟩

theorem IsDegree.not_nothing (n : UInt64) : ¬ IsDegree n .nothing := by
  intro h
  cases h

theorem IsReal.decode {x : Float} {d : Document} (h : IsReal x d) : Decode.real d = .ok x := by
  cases h with
  | real => rfl
  | integer => rfl

theorem IsReal.not_nothing (x : Float) : ¬ IsReal x .nothing := by
  intro h
  cases h

theorem IsTexts.decode {ss : List String} {d : Document} (h : IsTexts ss d) :
    Decode.list Decode.text d = .ok ss := by
  cases h with
  | @list ending hwhole =>
      have hitems : (ss.map Document.text).mapM Decode.text = .ok ss := by
        induction ss with
        | nil => rfl
        | cons s rest ih =>
            rw [List.map_cons, List.mapM_cons, ih]
            rfl
      have hend : Decode.finish ending = .ok () := by
        cases ending with
        | closed | loose => rfl
        | broken => cases hwhole
      exact Except.bind_eq_ok_iff.mpr
        ⟨ss, hitems, Except.bind_eq_ok_iff.mpr ⟨(), hend, rfl⟩⟩

/-- What is not nothing is taken as it is without the choice. -/
theorem IsOptional.decode {α : Type} {Stands : α → Document → Prop} {o : Option α} {d : Document}
    (h : IsOptional Stands o d) {decode : Decoder α}
    (hdecode : ∀ a d, Stands a d → decode d = .ok a) (hnothing : ∀ a, ¬ Stands a .nothing) :
    Decode.optional decode d = .ok o := by
  cases h with
  | nothing => rfl
  | @value a d hstands =>
      unfold Decode.optional
      split
      case h_1 => exact absurd hstands (hnothing a)
      case h_2 => exact Except.map_eq_ok_iff.mpr ⟨a, hdecode a d hstands, rfl⟩

/-! ## Patches -/

structure AxisPatch where
  input : Option String := none
  time : Option String := none
  derivative : Option String := none

structure FigurePatch where
  panelWidth : Option UInt32 := none
  panelHeight : Option UInt32 := none
  fontSize : Option UInt32 := none

/-- A degree or a ceiling may be named and set to none. -/
structure AnalysisPatch where
  timeDegree : Option UInt64 := none
  derivativeDegree : Option (Option UInt64) := none
  displayCeiling : Option (Option Float) := none
  labels : Option AxisPatch := none
  figure : Option FigurePatch := none

structure ComparisonPatch where
  labels : Option (List String) := none
  axes : Option AxisPatch := none
  figure : Option FigurePatch := none

structure SettingsPatch where
  analyze : Option AnalysisPatch := none
  compare : Option ComparisonPatch := none

/-! ## Axis labels -/

namespace AxisPatch

def apply (p : AxisPatch) (s : AxisLabels) : AxisLabels where
  input := p.input.getD s.input
  time := p.time.getD s.time
  derivative := p.derivative.getD s.derivative

structure Gives (p : AxisPatch) (entries : List (String × Document)) : Prop where
  input : Given IsText "input" entries p.input
  time : Given IsText "time" entries p.time
  derivative : Given IsText "derivative" entries p.derivative

def update (p : AxisPatch) : String → AxisLabels → AxisLabels
  | "input", s => { s with input := p.input.getD s.input }
  | "time", s => { s with time := p.time.getD s.time }
  | "derivative", s => { s with derivative := p.derivative.getD s.derivative }
  | _, s => s

theorem independent_update (p : AxisPatch) : Form.Independent p.update := by
  intro key other s
  unfold update
  split <;> split <;> rfl

theorem decode {p : AxisPatch} {d : Document} (h : IsTable Gives p d)
    (hfault : d.passedFault? = none) : AxisLabels.form.decode d = .ok (p.apply {}) := by
  obtain ⟨h⟩ := h
  have hfault' := Document.passedFault?_ofEntries.mp hfault
  have htext : ∀ s d, IsText s d → d.passedFault? = none → Decode.text d = .ok s :=
    fun _ _ hd _ => hd.decode
  refine Form.decode_of_updates (by decide) (by decide)
    p.independent_update ?_ hfault
  refine List.forall_mem_cons.mpr ⟨?_, List.forall_mem_cons.mpr
    ⟨?_, List.forall_mem_singleton.mpr ?_⟩⟩
  · exact h.input.updates hfault' htext AxisLabels.input fun _ => rfl
  · exact h.time.updates hfault' htext AxisLabels.time fun _ => rfl
  · exact h.derivative.updates hfault' htext AxisLabels.derivative fun _ => rfl

end AxisPatch

/-! ## Figures -/

namespace FigurePatch

def apply (p : FigurePatch) (s : FigureSize) : FigureSize where
  panelWidth := p.panelWidth.getD s.panelWidth
  panelHeight := p.panelHeight.getD s.panelHeight
  fontSize := p.fontSize.getD s.fontSize

structure Gives (p : FigurePatch) (entries : List (String × Document)) : Prop where
  panelWidth : Given IsWord "panel_width" entries p.panelWidth
  panelHeight : Given IsWord "panel_height" entries p.panelHeight
  fontSize : Given IsWord "font_size" entries p.fontSize

def update (p : FigurePatch) : String → FigureSize → FigureSize
  | "panel_width", s => { s with panelWidth := p.panelWidth.getD s.panelWidth }
  | "panel_height", s => { s with panelHeight := p.panelHeight.getD s.panelHeight }
  | "font_size", s => { s with fontSize := p.fontSize.getD s.fontSize }
  | _, s => s

theorem independent_update (p : FigurePatch) : Form.Independent p.update := by
  intro key other s
  unfold update
  split <;> split <;> rfl

theorem decode {p : FigurePatch} {d : Document} (h : IsTable Gives p d)
    (hfault : d.passedFault? = none) : FigureSize.form.decode d = .ok (p.apply {}) := by
  obtain ⟨h⟩ := h
  have hfault' := Document.passedFault?_ofEntries.mp hfault
  have hword : ∀ n d, IsWord n d → d.passedFault? = none → Decode.word d = .ok n :=
    fun _ _ hd _ => hd.decode
  refine Form.decode_of_updates (by decide) (by decide) p.independent_update ?_ hfault
  refine List.forall_mem_cons.mpr ⟨?_, List.forall_mem_cons.mpr
    ⟨?_, List.forall_mem_singleton.mpr ?_⟩⟩
  · exact h.panelWidth.updates hfault' hword FigureSize.panelWidth fun _ => rfl
  · exact h.panelHeight.updates hfault' hword FigureSize.panelHeight fun _ => rfl
  · exact h.fontSize.updates hfault' hword FigureSize.fontSize fun _ => rfl

end FigurePatch

/-! ## The analysis -/

namespace AnalysisPatch

/-- A patch of a table inside is applied to what this table holds. -/
def apply (p : AnalysisPatch) (s : AnalysisSettings) : AnalysisSettings where
  timeDegree := p.timeDegree.getD s.timeDegree
  derivativeDegree := p.derivativeDegree.getD s.derivativeDegree
  displayCeiling := p.displayCeiling.getD s.displayCeiling
  labels := (p.labels.map fun q => q.apply s.labels).getD s.labels
  figure := (p.figure.map fun q => q.apply s.figure).getD s.figure

structure Gives (p : AnalysisPatch) (entries : List (String × Document)) : Prop where
  timeDegree : Given IsDegree "time_degree" entries p.timeDegree
  derivativeDegree : Given (IsOptional IsDegree) "derivative_degree" entries p.derivativeDegree
  displayCeiling : Given (IsOptional IsReal) "display_ceiling" entries p.displayCeiling
  labels : Given (IsTable AxisPatch.Gives) "labels" entries p.labels
  figure : Given (IsTable FigurePatch.Gives) "figure" entries p.figure

/-- A table inside starts from its own defaults. -/
def update (p : AnalysisPatch) : String → AnalysisSettings → AnalysisSettings
  | "time_degree", s => { s with timeDegree := p.timeDegree.getD s.timeDegree }
  | "derivative_degree", s =>
    { s with derivativeDegree := p.derivativeDegree.getD s.derivativeDegree }
  | "display_ceiling", s => { s with displayCeiling := p.displayCeiling.getD s.displayCeiling }
  | "labels", s => { s with labels := (p.labels.map fun q => q.apply {}).getD s.labels }
  | "figure", s => { s with figure := (p.figure.map fun q => q.apply {}).getD s.figure }
  | _, s => s

theorem independent_update (p : AnalysisPatch) : Form.Independent p.update := by
  intro key other s
  unfold update
  split <;> split <;> rfl

theorem decode {p : AnalysisPatch} {d : Document} (h : IsTable Gives p d)
    (hfault : d.passedFault? = none) : AnalysisSettings.form.decode d = .ok (p.apply {}) := by
  obtain ⟨h⟩ := h
  have hfault' := Document.passedFault?_ofEntries.mp hfault
  refine Form.decode_of_updates (by decide) (by decide) p.independent_update ?_ hfault
  refine List.forall_mem_cons.mpr ⟨?_, List.forall_mem_cons.mpr ⟨?_, List.forall_mem_cons.mpr
    ⟨?_, List.forall_mem_cons.mpr ⟨?_, List.forall_mem_singleton.mpr ?_⟩⟩⟩⟩
  · exact h.timeDegree.updates hfault' (fun _ _ hd _ => hd.decode) AnalysisSettings.timeDegree
      fun _ => rfl
  · refine h.derivativeDegree.updates hfault' ?_ AnalysisSettings.derivativeDegree fun _ => rfl
    exact fun _ _ hd _ => hd.decode (fun _ _ h => IsDegree.decode h) IsDegree.not_nothing
  · refine h.displayCeiling.updates hfault' ?_ AnalysisSettings.displayCeiling fun _ => rfl
    exact fun _ _ hd _ => hd.decode (fun _ _ h => IsReal.decode h) IsReal.not_nothing
  · refine (h.labels.map fun q => q.apply {}).updates hfault' ?_ AnalysisSettings.labels
      fun _ => rfl
    rintro _ d ⟨q, hq, rfl⟩ hd
    exact AxisPatch.decode hq hd
  · refine (h.figure.map fun q => q.apply {}).updates hfault' ?_ AnalysisSettings.figure
      fun _ => rfl
    rintro _ d ⟨q, hq, rfl⟩ hd
    exact FigurePatch.decode hq hd

end AnalysisPatch

/-! ## The comparison -/

namespace ComparisonPatch

def apply (p : ComparisonPatch) (s : ComparisonSettings) : ComparisonSettings where
  labels := p.labels.getD s.labels
  axes := (p.axes.map fun q => q.apply s.axes).getD s.axes
  figure := (p.figure.map fun q => q.apply s.figure).getD s.figure

structure Gives (p : ComparisonPatch) (entries : List (String × Document)) : Prop where
  labels : Given IsTexts "labels" entries p.labels
  axes : Given (IsTable AxisPatch.Gives) "axes" entries p.axes
  figure : Given (IsTable FigurePatch.Gives) "figure" entries p.figure

def update (p : ComparisonPatch) : String → ComparisonSettings → ComparisonSettings
  | "labels", s => { s with labels := p.labels.getD s.labels }
  | "axes", s => { s with axes := (p.axes.map fun q => q.apply {}).getD s.axes }
  | "figure", s => { s with figure := (p.figure.map fun q => q.apply {}).getD s.figure }
  | _, s => s

theorem independent_update (p : ComparisonPatch) : Form.Independent p.update := by
  intro key other s
  unfold update
  split <;> split <;> rfl

theorem decode {p : ComparisonPatch} {d : Document} (h : IsTable Gives p d)
    (hfault : d.passedFault? = none) : ComparisonSettings.form.decode d = .ok (p.apply {}) := by
  obtain ⟨h⟩ := h
  have hfault' := Document.passedFault?_ofEntries.mp hfault
  refine Form.decode_of_updates (by decide) (by decide) p.independent_update ?_ hfault
  refine List.forall_mem_cons.mpr ⟨?_, List.forall_mem_cons.mpr
    ⟨?_, List.forall_mem_singleton.mpr ?_⟩⟩
  · exact h.labels.updates hfault' (fun _ _ hd _ => hd.decode) ComparisonSettings.labels
      fun _ => rfl
  · refine (h.axes.map fun q => q.apply {}).updates hfault' ?_ ComparisonSettings.axes
      fun _ => rfl
    rintro _ d ⟨q, hq, rfl⟩ hd
    exact AxisPatch.decode hq hd
  · refine (h.figure.map fun q => q.apply {}).updates hfault' ?_ ComparisonSettings.figure
      fun _ => rfl
    rintro _ d ⟨q, hq, rfl⟩ hd
    exact FigurePatch.decode hq hd

end ComparisonPatch

/-! ## All settings -/

namespace SettingsPatch

def apply (p : SettingsPatch) (s : Settings) : Settings where
  analyze := (p.analyze.map fun q => q.apply s.analyze).getD s.analyze
  compare := (p.compare.map fun q => q.apply s.compare).getD s.compare

structure Gives (p : SettingsPatch) (entries : List (String × Document)) : Prop where
  analyze : Given (IsTable AnalysisPatch.Gives) "analyze" entries p.analyze
  compare : Given (IsTable ComparisonPatch.Gives) "compare" entries p.compare

def update (p : SettingsPatch) : String → Settings → Settings
  | "analyze", s => { s with analyze := (p.analyze.map fun q => q.apply {}).getD s.analyze }
  | "compare", s => { s with compare := (p.compare.map fun q => q.apply {}).getD s.compare }
  | _, s => s

theorem independent_update (p : SettingsPatch) : Form.Independent p.update := by
  intro key other s
  unfold update
  split <;> split <;> rfl

theorem decode {p : SettingsPatch} {d : Document} (h : IsTable Gives p d)
    (hfault : d.passedFault? = none) : Settings.form.decode d = .ok (p.apply {}) := by
  obtain ⟨h⟩ := h
  have hfault' := Document.passedFault?_ofEntries.mp hfault
  refine Form.decode_of_updates (by decide) (by decide) p.independent_update ?_ hfault
  refine List.forall_mem_cons.mpr ⟨?_, List.forall_mem_singleton.mpr ?_⟩
  · refine (h.analyze.map fun q => q.apply {}).updates hfault' ?_ Settings.analyze fun _ => rfl
    rintro _ d ⟨q, hq, rfl⟩ hd
    exact AnalysisPatch.decode hq hd
  · refine (h.compare.map fun q => q.apply {}).updates hfault' ?_ Settings.compare fun _ => rfl
    rintro _ d ⟨q, hq, rfl⟩ hd
    exact ComparisonPatch.decode hq hd

end SettingsPatch

end GrowthCurve
