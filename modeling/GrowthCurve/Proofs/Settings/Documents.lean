import Mathlib
import GrowthCurve.Proofs.Json.Writing
import GrowthCurve.Proofs.Settings.Patch
import GrowthCurve.Proofs.Toml.Faultless
import GrowthCurve.Proofs.Toml.Reading

/-!
# Settings documents

A document in either format replaces the settings that it names and leaves all
others as they are by default, whatever the order of its keys and whatever else
it holds. What is written names every setting, so it is read back.
-/

namespace GrowthCurve

open Plot (FigureSize)

/-! ## Patches that name every setting -/

theorem isOptional_ofOption {α : Type} {Stands : α → Document → Prop} {write : α → Document}
    (h : ∀ a, Stands a (write a)) (o : Option α) : IsOptional Stands o (.ofOption write o) := by
  cases o with
  | none => exact .nothing
  | some a => exact .value (h a)

namespace AxisLabels

def patch (s : AxisLabels) : AxisPatch where
  input := some s.input
  time := some s.time
  derivative := some s.derivative

theorem isTable_toDocument (s : AxisLabels) : IsTable AxisPatch.Gives s.patch s.toDocument :=
  .table ⟨.once rfl .text, .once rfl .text, .once rfl .text⟩

theorem reread_toDocument (s : AxisLabels) : Json.reread s.toDocument = s.toDocument := by
  unfold toDocument
  rw [Json.reread_ofEntries]
  rfl

end AxisLabels

namespace Plot.FigureSize

def patch (s : FigureSize) : FigurePatch where
  panelWidth := some s.panelWidth
  panelHeight := some s.panelHeight
  fontSize := some s.fontSize

theorem isTable_toDocument (s : FigureSize) : IsTable FigurePatch.Gives s.patch s.toDocument :=
  .table ⟨.once rfl .integer, .once rfl .integer, .once rfl .integer⟩

theorem reread_toDocument (s : FigureSize) : Json.reread s.toDocument = s.toDocument := by
  have hword : ∀ n : UInt32, Json.reread (.integer n.toNat) = .integer n.toNat :=
    fun n => Json.reread_integer (lt_trans n.toNat_lt (by decide))
  unfold toDocument
  rw [Json.reread_ofEntries]
  simp only [List.map_cons, List.map_nil, hword]

end Plot.FigureSize

namespace AnalysisSettings

def patch (s : AnalysisSettings) : AnalysisPatch where
  timeDegree := some s.timeDegree
  derivativeDegree := some s.derivativeDegree
  displayCeiling := some s.displayCeiling
  labels := some s.labels.patch
  figure := some s.figure.patch

theorem isTable_toDocument (s : AnalysisSettings) :
    IsTable AnalysisPatch.Gives s.patch s.toDocument := by
  refine .table ⟨.once rfl .integer, .once rfl ?_, .once rfl ?_,
    .once rfl s.labels.isTable_toDocument, .once rfl s.figure.isTable_toDocument⟩
  · exact isOptional_ofOption (fun _ => .integer) _
  · exact isOptional_ofOption (fun _ => .real) _

/-- The ceiling is all that writing may change. -/
theorem reread_toDocument {s : AnalysisSettings}
    (hceiling : ∀ x, s.displayCeiling = some x → Json.reread (.real x) = .real x) :
    Json.reread s.toDocument = s.toDocument := by
  have hdegree : ∀ n : UInt64, Json.reread (.integer n.toNat) = .integer n.toNat :=
    fun n => Json.reread_integer n.toNat_lt
  have hoption : ∀ {α : Type} {write : α → Document} (o : Option α),
      (∀ a, o = some a → Json.reread (write a) = write a) →
      Json.reread (.ofOption write o) = .ofOption write o := by
    intro α write o h
    cases o with
    | none => rfl
    | some a => exact h a rfl
  have hderivative := hoption s.derivativeDegree fun n _ => hdegree n
  have hreal := hoption s.displayCeiling hceiling
  unfold toDocument
  rw [Json.reread_ofEntries]
  simp only [List.map_cons, List.map_nil, hdegree, hderivative, hreal,
    AxisLabels.reread_toDocument, Plot.FigureSize.reread_toDocument]

end AnalysisSettings

namespace ComparisonSettings

def patch (s : ComparisonSettings) : ComparisonPatch where
  labels := some s.labels
  axes := some s.axes.patch
  figure := some s.figure.patch

theorem isTable_toDocument (s : ComparisonSettings) :
    IsTable ComparisonPatch.Gives s.patch s.toDocument :=
  .table ⟨.once rfl (.list rfl), .once rfl s.axes.isTable_toDocument,
    .once rfl s.figure.isTable_toDocument⟩

theorem reread_toDocument (s : ComparisonSettings) : Json.reread s.toDocument = s.toDocument := by
  have hlabels : Json.reread (.ofItems (s.labels.map .text)) = .ofItems (s.labels.map .text) := by
    rw [Json.reread_ofItems, List.map_map]
    rfl
  unfold toDocument
  rw [Json.reread_ofEntries]
  simp only [List.map_cons, List.map_nil, hlabels, AxisLabels.reread_toDocument,
    Plot.FigureSize.reread_toDocument]

end ComparisonSettings

namespace Settings

def patch (s : Settings) : SettingsPatch where
  analyze := some s.analyze.patch
  compare := some s.compare.patch

theorem isTable_toDocument (s : Settings) : IsTable SettingsPatch.Gives s.patch s.toDocument :=
  .table ⟨.once rfl s.analyze.isTable_toDocument, .once rfl s.compare.isTable_toDocument⟩

/-- Nothing is left of what it is applied to. -/
theorem apply_patch (s s' : Settings) : s.patch.apply s' = s :=
  rfl

theorem reread_toDocument {s : Settings}
    (hceiling : ∀ x, s.analyze.displayCeiling = some x → Json.reread (.real x) = .real x) :
    Json.reread s.toDocument = s.toDocument := by
  unfold toDocument
  rw [Json.reread_ofEntries]
  simp only [List.map_cons, List.map_nil, AnalysisSettings.reread_toDocument hceiling,
    ComparisonSettings.reread_toDocument]

/-! ## Reading -/

variable {p : SettingsPatch} {d : Document} {text : String}

theorem ofJson_of_isJson (hd : IsTable SettingsPatch.Gives p d) (htext : Json.IsJson d text) :
    ofJson text = .ok (p.apply {}) := by
  unfold ofJson
  rw [Json.decode_of_isJson htext]
  exact SettingsPatch.decode hd (Json.passedFault?_of_isJson htext)

theorem ofToml_of_read? (hd : IsTable SettingsPatch.Gives p d)
    (htext : Toml.read? text.toList = some d) : ofToml text = .ok (p.apply {}) := by
  unfold ofToml Toml.decode
  rw [htext]
  exact SettingsPatch.decode hd (Toml.passedFault?_of_read? htext)

theorem ofToml_of_not_read (htext : Toml.read? text.toList = none) :
    ofToml text = .error .malformed := by
  unfold ofToml Toml.decode
  rw [htext]

theorem ofJson_write (layout : Json.Layout) {s : Settings}
    (hfinite : ∀ x, s.analyze.displayCeiling = some x → x.isFinite = true)
    (hcode : ReadBack s.analyze.displayCeiling.toList) :
    ofJson (Json.write layout s.toDocument) = .ok s := by
  have hreread : Json.reread s.toDocument = s.toDocument := by
    apply reread_toDocument
    intro x hx
    exact Json.reread_of_isFinite hcode (Option.mem_toList.mpr hx) (hfinite x hx)
  have htext := Json.isJson_write layout s.toDocument
  rw [hreread] at htext
  rw [ofJson_of_isJson s.isTable_toDocument htext, apply_patch]

/-- **Documents replace the settings that they name**: a table in either format, with
known keys in any order and unknown ones anywhere, replaces exactly the settings that
it names at every level. Both formats give the same for the same settings, and what is
written is read back. A TOML text has to keep to the nesting that its reader takes. -/
theorem documents_replace_named_settings :
    (∀ (p : SettingsPatch) (d : Document) (text : String), IsTable SettingsPatch.Gives p d →
      (Json.IsJson d text → ofJson text = .ok (p.apply {})) ∧
        (Toml.IsToml Toml.nestingLimit d text → ofToml text = .ok (p.apply {})) ∧
        (Toml.read? text.toList = some d → ofToml text = .ok (p.apply {}))) ∧
      (∀ (p : SettingsPatch) (d d' : Document) (text text' : String),
        IsTable SettingsPatch.Gives p d → IsTable SettingsPatch.Gives p d' →
        Json.IsJson d text → Toml.IsToml Toml.nestingLimit d' text' →
        ofJson text = ofToml text') ∧
      ∀ (layout : Json.Layout) (s : Settings),
        (∀ x, s.analyze.displayCeiling = some x → x.isFinite = true) →
        ReadBack s.analyze.displayCeiling.toList →
        ofJson (Json.write layout s.toDocument) = .ok s := by
  refine ⟨?_, ?_, ?_⟩
  · intro p d text hd
    exact ⟨ofJson_of_isJson hd, fun htext => ofToml_of_read? hd (Toml.read?_of_isToml htext),
      ofToml_of_read? hd⟩
  · intro p d d' text text' hd hd' htext htext'
    rw [ofJson_of_isJson hd htext, ofToml_of_read? hd' (Toml.read?_of_isToml htext')]
  · exact fun layout s => ofJson_write layout

/-- One label of the analysis, and a key that is not known. -/
def labelDocument : Document :=
  .ofEntries [("note", .truth true),
    ("analyze", .ofEntries [("labels", .ofEntries [("time", .text "t")])])]

def labelPatch : SettingsPatch where
  analyze := some { labels := some { time := some "t" } }

def labelJson : String :=
  "\x7b\"note\":true,\"analyze\":\x7b\"labels\":\x7b\"time\":\"t\"\x7d\x7d\x7d"

def labelToml : String :=
  "note = true\n[analyze.labels]\ntime = 't' # seconds\n"

theorem isTable_labelDocument : IsTable SettingsPatch.Gives labelPatch labelDocument := by
  have hlabels : IsTable AxisPatch.Gives { time := some "t" } (.ofEntries [("time", .text "t")]) :=
    .table ⟨.absent rfl, .once rfl .text, .absent rfl⟩
  refine .table ⟨.once rfl (.table ⟨.absent rfl, .absent rfl, .absent rfl, .once rfl hlabels,
    .absent rfl⟩), .absent rfl⟩

theorem isJson_labelJson : Json.IsJson labelDocument labelJson := by
  have hwrite : Json.write .compact labelDocument = labelJson := by decide +kernel
  have hreread : Json.reread labelDocument = labelDocument := by
    simp [labelDocument, Json.reread_ofEntries, Json.reread]
  have htext := Json.isJson_write .compact labelDocument
  rwa [hwrite, hreread] at htext

theorem keyPart_of_all (cs : List Char) (hne : cs ≠ [])
    (hall : cs.all Toml.isKeyChar = true) : Toml.KeyPart (String.ofList cs) cs :=
  .bare hne (List.all_eq_true.mp hall)

/-- A key, a value, and blanks around the mark between them. -/
theorem statementText_pair (cs : List Char) (hne : cs ≠ []) (hall : cs.all Toml.isKeyChar = true)
    {d : Document} {value : List Char} (hvalue : Toml.ScalarText d value) :
    Toml.StatementText Toml.nestingLimit (.pair ⟨[], String.ofList cs, d⟩)
      (([] ++ (cs ++ [' '])) ++ '=' :: ([' '] ++ value)) := by
  have hblank : Toml.Blanks [' '] := List.forall_mem_singleton.mpr rfl
  exact .pair (p := ⟨[], String.ofList cs, d⟩) (.last nofun (keyPart_of_all cs hne hall) hblank)
    (Nat.zero_lt_succ 78) hblank (.scalar hvalue)

theorem isToml_labelToml : Toml.IsToml Toml.nestingLimit labelDocument labelToml := by
  have hnone : Toml.Blanks [] := nofun
  have hblank : Toml.Blanks [' '] := List.forall_mem_singleton.mpr rfl
  have hpath : Toml.KeyText ["analyze", "labels"]
      ([] ++ ("analyze".toList ++ ([] ++ '.' :: ([] ++ ("labels".toList ++ []))))) :=
    .more hnone (keyPart_of_all _ (by decide) (by decide)) hnone
      (.last hnone (keyPart_of_all _ (by decide) (by decide)) hnone)
  have hheader : Toml.StatementText Toml.nestingLimit (.header false ["analyze"] "labels")
      ('[' :: (([] ++ ("analyze".toList ++ ([] ++ '.' :: ([] ++ ("labels".toList ++ []))))) ++
        [']'])) :=
    .header hpath (by decide)
  have htext : Toml.ScalarText (.text "t") ('\'' :: ("t".toList ++ ['\''])) :=
    .text (.literal (List.forall_mem_singleton.mpr rfl) (by decide))
  have hnote := statementText_pair "note".toList (by decide) (by decide) .yes
  have htime := statementText_pair "time".toList (by decide) (by decide) htext
  have hcomment : Toml.Comment ('#' :: " seconds".toList) :=
    .text (List.all_eq_true.mp (by decide))
  have hlines := Toml.LinesText.line hnone hnote hnone .none .feed
    (.line hnone hheader hnone .none .feed
      (.line hnone htime hblank hcomment .feed (.done hnone .none)))
  have hpairs : Toml.Pairs [⟨[], "time", .text "t"⟩] [("time", .text "t")] :=
    .value .nil (by decide)
  refine ⟨[⟨[], "note", .truth true⟩], [⟨false, ["analyze"], "labels", [⟨[], "time", .text "t"⟩]⟩],
    [("note", .truth true)], _, ?_, .value .nil (by decide),
    .implied (.opened hpairs .nil ?_ .nil ?_ .nil) .nil ?_ .nil, ?_, rfl⟩
  · exact hlines
  · exact fun _ _ => List.not_mem_nil
  · exact List.not_mem_nil
  · exact List.not_mem_nil
  · exact List.forall_mem_singleton.mpr (by decide)

theorem documents_replace_named_settings_label :
    ofJson labelJson = .ok (labelPatch.apply {}) ∧ ofToml labelToml = .ok (labelPatch.apply {}) ∧
      ofJson labelJson = ofToml labelToml ∧ ofJson (Settings.toJson {}) = .ok {} := by
  have hjson := (documents_replace_named_settings.1 labelPatch labelDocument labelJson
    isTable_labelDocument).1 isJson_labelJson
  have htoml := (documents_replace_named_settings.1 labelPatch labelDocument labelToml
    isTable_labelDocument).2.1 isToml_labelToml
  have hsame := documents_replace_named_settings.2.1 labelPatch labelDocument labelDocument
    labelJson labelToml isTable_labelDocument isTable_labelDocument isJson_labelJson
    isToml_labelToml
  have hfinite : ∀ x, ({} : Settings).analyze.displayCeiling = some x → x.isFinite = true := by
    rintro x ⟨⟩
    decide +kernel
  have hcode : ReadBack ({} : Settings).analyze.displayCeiling.toList := by
    unfold ReadBack
    decide +kernel
  exact ⟨hjson, htoml, hsame, documents_replace_named_settings.2.2 .compact {} hfinite hcode⟩

/-- A value that nobody asks for is refused where it is nested too deep. -/
theorem ofToml_nested_too_deep :
    IsTable SettingsPatch.Gives {} (.ofEntries [("x", Toml.nested 100)]) ∧
      Toml.IsToml 100 (.ofEntries [("x", Toml.nested 100)]) (Toml.nestedText 100) ∧
      ofToml (Toml.nestedText 100) = .error .malformed := by
  have hlimit : Toml.nestingLimit < 100 := by decide
  exact ⟨.table ⟨.absent rfl, .absent rfl⟩, Toml.isToml_nestedText (by decide),
    ofToml_of_not_read (Toml.read?_nestedText hlimit)⟩

end Settings

end GrowthCurve
