import Mathlib
import GrowthCurve.Proofs.Analysis.Gallery
import GrowthCurve.Proofs.Sample.Grammar

/-!
# Comparisons, all or nothing

A comparison ends at the first thing that is wrong, before anybody sees a
figure. If nothing is wrong its viewer gets one panel, with one curve a file in
the order of the files.
-/

namespace GrowthCurve.Comparison

/-- Why a comparison ends before its viewer is called. Each reason counts only
where those above it do not hold. -/
inductive Stops (files : Path → Except FileError String) (paths : List Path)
    (settings : ComparisonSettings) : Error → Prop where
  | smallPanel
      (small : settings.figure.panelWidth < 100 ∨ settings.figure.panelHeight < 100) :
      Stops files paths settings (.config ("panel size must be at least 100x100, got " ++
        toString settings.figure.panelWidth.toNat ++ "x" ++
        toString settings.figure.panelHeight.toNat))
  | noFont (width : 100 ≤ settings.figure.panelWidth) (height : 100 ≤ settings.figure.panelHeight)
      (font : settings.figure.fontSize = 0) :
      Stops files paths settings (.config "font_size must be positive")
  | tooFew (figure : settings.figure.Valid) (few : paths.length < 2) :
      Stops files paths settings (.config ("comparison needs at least two result files, got " ++
        toString paths.length))
  | labels (figure : settings.figure.Valid) (several : 2 ≤ paths.length)
      (given : settings.labels ≠ []) (other : settings.labels.length ≠ paths.length) :
      Stops files paths settings (.config (toString settings.labels.length ++
        " labels given for " ++ toString paths.length ++ " result files"))
  | file {e : Error} (comparable : Comparable settings paths.length)
      (fault : Series.FirstFault files paths e) : Stops files paths settings e

/-- The curve of the file with index `i`: all of its records in their order,
unclipped, in a colour and under a label of its own. -/
structure Traces (files : Path → Except FileError String) (settings : ComparisonSettings) (i : ℕ)
    (path : Path) (c : Plot.Curve Float) : Prop where
  records : ∃ text records, files path = .ok text ∧
    List.Forall₂ (fun line r => Record.IsRecord (Record.fields line) r)
      (Series.content text.toList) records ∧
    c.xs = records.map (fun r => r.inputSize.toFloat) ∧ c.ys = records.map Record.elapsed
  solid : c.line = .solid
  colour : Plot.Colour.palette[i % 8]? = some c.colour
  label : settings.labels[i]? = some c.label ∨
    settings.labels = [] ∧ c.label = path.stem?.getD path.text
  unclipped : c.ceiling = none

/-- One panel with a legend and a curve for every file. -/
structure Aligns (files : Path → Except FileError String) (settings : ComparisonSettings)
    (paths : List Path) (p : Plot.Panel Float) : Prop where
  captions : p.xLabel = settings.axes.input ∧ p.yLabel = settings.axes.time ∧ p.title = none
  legend : p.legend = true
  length : p.curves.length = paths.length
  curves : ∀ i path c, paths[i]? = some path → p.curves[i]? = some c →
    Traces files settings i path c

variable {σ : Type} {read : FileReader (StateM σ)} {st : σ}
  {files : Path → Except FileError String} {paths : List Path} {settings : ComparisonSettings}

/-! ## Reasons to stop -/

theorem stops_of_fault {fault : Fault} (h : fault? settings paths.length = some fault) :
    Stops files paths settings (.config fault.message) := by
  unfold fault? ComparisonSettings.fault? at h
  cases hfigure : settings.figure.fault? with
  | some found =>
      rw [hfigure] at h
      obtain rfl := Option.some.inj h
      unfold Plot.FigureSize.fault? at hfigure
      split_ifs at hfigure with hsmall hfont
      · obtain rfl := Option.some.inj hfigure
        exact .smallPanel (by simpa using hsmall)
      · obtain rfl := Option.some.inj hfigure
        have hlarge : 100 ≤ settings.figure.panelWidth ∧ 100 ≤ settings.figure.panelHeight := by
          simpa using hsmall
        exact .noFont hlarge.1 hlarge.2 hfont
  | none =>
      have hvalid := Plot.FigureSize.fault?_eq_none_iff.mp hfigure
      rw [hfigure] at h
      dsimp only at h
      split_ifs at h with hfew hlabels
      · obtain rfl := Option.some.inj h
        exact .tooFew hvalid hfew
      · obtain rfl := Option.some.inj h
        exact .labels hvalid (not_lt.mp hfew) hlabels.1 hlabels.2

theorem Stops.exists_fault_of_not_comparable {e : Error} (h : Stops files paths settings e)
    (hcomparable : ¬ Comparable settings paths.length) :
    ∃ fault, fault? settings paths.length = some fault ∧ e = .config fault.message := by
  unfold fault? ComparisonSettings.fault?
  cases h with
  | smallPanel hsmall =>
      refine ⟨.settings (.smallPanel settings.figure.panelWidth settings.figure.panelHeight),
        ?_, rfl⟩
      have hfault : settings.figure.fault? =
          some (.smallPanel settings.figure.panelWidth settings.figure.panelHeight) :=
        if_pos (by simpa using hsmall)
      rw [hfault]
  | noFont hwidth hheight hfont =>
      refine ⟨.settings .noFontSize, ?_, rfl⟩
      have hlarge : ¬ (settings.figure.panelWidth < 100 || settings.figure.panelHeight < 100) := by
        simpa using ⟨hwidth, hheight⟩
      have hfault : settings.figure.fault? = some .noFontSize :=
        (if_neg hlarge).trans (if_pos hfont)
      rw [hfault]
  | tooFew hvalid hfew =>
      refine ⟨.tooFewFiles paths.length, ?_, rfl⟩
      rw [Plot.FigureSize.fault?_eq_none_iff.mpr hvalid]
      exact if_pos hfew
  | labels hvalid hseveral hgiven hother =>
      refine ⟨.labelCount settings.labels.length paths.length, ?_, rfl⟩
      rw [Plot.FigureSize.fault?_eq_none_iff.mpr hvalid]
      exact (if_neg (not_lt.mpr hseveral)).trans (if_pos ⟨hgiven, hother⟩)
  | file hcomparable' _ => exact absurd hcomparable' hcomparable

theorem Stops.firstFault_of_comparable {e : Error} (h : Stops files paths settings e)
    (hcomparable : Comparable settings paths.length) : Series.FirstFault files paths e := by
  have hfigure : settings.figure.Valid := hcomparable.valid
  cases h with
  | smallPanel hsmall =>
      rcases hsmall with hsmall | hsmall
      · exact absurd hfigure.width (UInt32.not_le.mpr hsmall)
      · exact absurd hfigure.height (UInt32.not_le.mpr hsmall)
  | noFont _ _ hfont => exact absurd hfont (UInt32.pos_iff_ne_zero.mp hfigure.font)
  | tooFew _ hfew => exact absurd hcomparable.several (not_le.mpr hfew)
  | labels _ _ hgiven hother => rcases hcomparable.labelled with h | h <;> contradiction
  | file _ hfault => exact hfault

/-- There is one reason to stop at the most. -/
theorem Stops.unique {e e' : Error} (h : Stops files paths settings e)
    (h' : Stops files paths settings e') : e = e' := by
  by_cases hcomparable : Comparable settings paths.length
  · exact (h.firstFault_of_comparable hcomparable).unique (h'.firstFault_of_comparable hcomparable)
  · obtain ⟨fault, hfault, rfl⟩ := h.exists_fault_of_not_comparable hcomparable
    obtain ⟨fault', hfault', rfl⟩ := h'.exists_fault_of_not_comparable hcomparable
    rw [Option.some.inj (hfault.symm.trans hfault')]

/-! ## The panel -/

theorem records_of_loads {path : Path} {s : Series} (h : Series.Loads files path s) :
    s.source = path ∧ ∃ text records, files path = .ok text ∧
      List.Forall₂ (fun line r => Record.IsRecord (Record.fields line) r)
        (Series.content text.toList) records ∧
      s.xs = records.map (fun r => r.inputSize.toFloat) ∧ s.times = records.map Record.elapsed := by
  obtain ⟨text, htext, hread⟩ := h
  obtain ⟨records, hrecords, rfl⟩ := Except.map_eq_ok_iff.mp hread
  exact ⟨rfl, text, records, htext, Series.forall_isRecord_of_readRecords hrecords, List.map_map,
    rfl⟩

theorem isRecord_unique : Relator.RightUnique fun (line : List Char) (r : Record) =>
    Record.IsRecord (Record.fields line) r := by
  intro line r r' hr hr'
  exact Except.ok.inj
    ((Record.read_eq_ok_iff.mpr hr).symm.trans (Record.read_eq_ok_iff.mpr hr'))

/-- The curve of a file shows what loads from it. -/
theorem Traces.columns_eq {i : ℕ} {path : Path} {c : Plot.Curve Float} {s : Series}
    (h : Traces files settings i path c) (hs : Series.Loads files path s) :
    c.xs = s.xs ∧ c.ys = s.times := by
  obtain ⟨-, text, records, htext, hrecords, hxs, htimes⟩ := records_of_loads hs
  obtain ⟨text', records', htext', hrecords', hxs', hys'⟩ := h.records
  obtain rfl := Except.ok.inj (htext.symm.trans htext')
  obtain rfl := List.right_unique_forall₂' isRecord_unique hrecords hrecords'
  exact ⟨hxs'.trans hxs.symm, hys'.trans htimes.symm⟩

theorem traces_curve {i : ℕ} {path : Path} {s : Series} (h : Series.Loads files path s)
    (hlabels : settings.labels = [] ∨ i < settings.labels.length) :
    Traces files settings i path (curve settings.labels s i) := by
  obtain ⟨hsource, hrecords⟩ := records_of_loads h
  refine ⟨hrecords, rfl, ?_, ?_, rfl⟩
  · have hbound : i % 8 < Plot.Colour.palette.length := Nat.mod_lt i (by decide)
    have hcolour : (curve settings.labels s i).colour =
        Plot.Colour.palette.getD (i % 8) .blueTone := rfl
    rw [hcolour, List.getD_eq_getElem _ _ hbound, List.getElem?_eq_getElem hbound]
  · have hlabel : (curve settings.labels s i).label = settings.labels.getD i s.label := rfl
    rcases hlabels with hnone | hi
    · refine Or.inr ⟨hnone, ?_⟩
      rw [hlabel, hnone, List.getD_nil, ← hsource]
      rfl
    · refine Or.inl ?_
      rw [hlabel, List.getD_eq_getElem _ _ hi, List.getElem?_eq_getElem hi]

theorem aligns_panel {series : List Series} (hcomparable : Comparable settings paths.length)
    (h : List.Forall₂ (Series.Loads files) paths series) :
    Aligns files settings paths (panel series settings.labels settings.axes) := by
  have hlength : (panel series settings.labels settings.axes).curves.length = paths.length := by
    unfold panel
    rw [List.length_map, List.length_zipIdx, h.length_eq]
  refine ⟨⟨rfl, rfl, rfl⟩, rfl, hlength, ?_⟩
  intro i path c hpath hc
  obtain ⟨hi, rfl⟩ := List.getElem?_eq_some_iff.mp hpath
  have hseries : i < series.length := h.length_eq ▸ hi
  have hcurve : (panel series settings.labels settings.axes).curves[i]? =
      some (curve settings.labels series[i] i) := by
    unfold panel
    simp [hseries]
  obtain rfl := Option.some.inj (hcurve.symm.trans hc)
  refine traces_curve (h.get hi hseries) ?_
  rcases hcomparable.labelled with hnone | hmatch
  · exact Or.inl hnone
  · exact Or.inr (hmatch ▸ hi)

/-! ## Runs -/

/-- **Comparisons are all or nothing**: a comparison stops for the first reason that
there is, without a figure: its settings, the number of its files and labels, or the
first file that does not load. Without a reason the viewer is called once, with a panel
that shows the file of every path in its place, and the series come back in the order
of the paths. -/
theorem run_all_or_nothing (read : FileReader (StateM σ)) (hfinds : read.Finds st files)
    (paths : List Path) (settings : ComparisonSettings) :
    (∃ e, Stops files paths settings e ∧ (∀ e', Stops files paths settings e' → e' = e) ∧
      Viewer.Hands (fun viewer => run read viewer paths settings) st none (.error e)) ∨
    (¬ ∃ e, Stops files paths settings e) ∧ ∃ series p figure,
      List.Forall₂ (Series.Loads files) paths series ∧ Aligns files settings paths p ∧
      Plot.draw [p] settings.figure = .ok figure ∧
      figure.frames.map Plot.Frame.legend = [some (p.curves.map Plot.Curve.legendEntry)] ∧
      Viewer.Hands (fun viewer => run read viewer paths settings) st (some figure)
        (.ok series) := by
  cases hfault : fault? settings paths.length with
  | some fault =>
      have hstops : Stops files paths settings (.config fault.message) := stops_of_fault hfault
      refine Or.inl ⟨_, hstops, fun e' he' => he'.unique hstops, ?_⟩
      simp only [run_of_fault hfault]
      exact Viewer.hands_error _ st
  | none =>
      have hcomparable := fault?_eq_none_iff.mp hfault
      simp only [run_of_comparable hfault]
      rcases Series.loadAll_cases_of_finds hfinds paths with
        ⟨series, hload, hseries⟩ | ⟨e, hload, hfirst⟩
      · obtain ⟨figure, hdraw⟩ : ∃ figure, drawn series settings = .ok figure :=
          exists_drawn (Series.aligned_of_forall₂_loads hseries)
        refine Or.inr ⟨?_, series, panel series settings.labels settings.axes, figure, hseries,
          aligns_panel hcomparable hseries, hdraw, ?_,
          (Viewer.hands_render hdraw series st).after hload⟩
        · rintro ⟨e, hstops⟩
          exact (hstops.firstFault_of_comparable hcomparable).not_forall₂ hseries
        · have hcurves : (panel series settings.labels settings.axes).curves ≠ [] := by
            have hseveral := hcomparable.several
            intro hnil
            rw [← (aligns_panel hcomparable hseries).length, hnil] at hseveral
            exact absurd hseveral (by decide)
          rw [Plot.legends_of_draw hdraw, List.map_singleton, Plot.Panel.legendEntries?, if_pos]
          simpa [panel] using hcurves
      · have hstops : Stops files paths settings e := .file hcomparable hfirst
        exact Or.inl ⟨e, hstops, fun e' he' => he'.unique hstops, Viewer.hands_of_error hload _⟩

/-- Two files of different lengths and widths, without labels. Each of them has its
numbers in the panel, under its own name. -/
theorem run_all_or_nothing_two_files :
    let files : Path → Except FileError String := fun path =>
      if path.text = "a.csv" then .ok "1,0.5\n2,1.5\n" else .ok "4,2.5,9\n"
    let paths : List Path := [⟨"a.csv"⟩, ⟨"b.csv"⟩]
    FileReader.Finds (.ofFiles files) () files ∧ ∃ series p figure,
      List.Forall₂ (Series.Loads files) paths series ∧ Aligns files {} paths p ∧
      p.curves.map Plot.Curve.xs = [[1, 2], [4]] ∧
      p.curves.map Plot.Curve.ys = [[0.5, 1.5], [2.5]] ∧
      p.curves.map Plot.Curve.label = ["a", "b"] ∧
      Plot.draw [p] {} = .ok figure ∧
      figure.frames.map Plot.Frame.legend = [some (p.curves.map Plot.Curve.legendEntry)] ∧
      Viewer.Hands (fun viewer => run (.ofFiles files) viewer paths {}) () (some figure)
        (.ok series) := by
  intro files paths
  have hfinds : FileReader.Finds (.ofFiles files) () files := FileReader.finds_ofFiles files ()
  have hcomparable : Comparable {} paths.length :=
    ⟨⟨by decide, by decide, by decide⟩, le_rfl, Or.inl rfl⟩
  have hfirst : Series.Loads files ⟨"a.csv"⟩ ⟨⟨"a.csv"⟩, [1, 2], [0.5, 1.5], none⟩ :=
    ⟨_, rfl, by decide +kernel⟩
  have hsecond : Series.Loads files ⟨"b.csv"⟩ ⟨⟨"b.csv"⟩, [4], [2.5], some [0]⟩ :=
    ⟨_, rfl, by decide +kernel⟩
  refine ⟨hfinds, ?_⟩
  rcases run_all_or_nothing _ hfinds paths {} with
    ⟨e, hstops, -⟩ | ⟨-, series, p, figure, hseries, haligns, hshown⟩
  · exact absurd (.cons hfirst (.cons hsecond .nil))
      (hstops.firstFault_of_comparable hcomparable).not_forall₂
  · obtain ⟨c₀, c₁, hcurves⟩ := List.length_eq_two.mp haligns.length
    have htraces₀ : Traces files {} 0 ⟨"a.csv"⟩ c₀ :=
      haligns.curves 0 _ _ rfl (by rw [hcurves]; rfl)
    have htraces₁ : Traces files {} 1 ⟨"b.csv"⟩ c₁ :=
      haligns.curves 1 _ _ rfl (by rw [hcurves]; rfl)
    refine ⟨series, p, figure, hseries, haligns, ?_, ?_, ?_, hshown⟩
    all_goals rw [hcurves, List.map_cons, List.map_singleton]
    · rw [(htraces₀.columns_eq hfirst).1, (htraces₁.columns_eq hsecond).1]
      decide +kernel
    · rw [(htraces₀.columns_eq hfirst).2, (htraces₁.columns_eq hsecond).2]
    · obtain ⟨-, hlabel₀⟩ := htraces₀.label.resolve_left nofun
      obtain ⟨-, hlabel₁⟩ := htraces₁.label.resolve_left nofun
      rw [hlabel₀, hlabel₁]
      decide +kernel

end GrowthCurve.Comparison
