import Mathlib
import GrowthCurve.Proofs.Analysis.Panels

/-!
# Settings that only change what is shown

Captions, sizes and ceilings are for the figure. Two analyses of a file that
differ in nothing else come to the same fits, and show the same curves under
their own captions and ceilings.
-/

namespace GrowthCurve

/-- The curve as it is without a ceiling. -/
def Plot.Curve.unclipped {α : Type} (c : Plot.Curve α) : Plot.Curve α :=
  { c with ceiling := none }

/-- What is left of a panel without captions and ceilings. -/
def Plot.Panel.bare {α : Type} (p : Plot.Panel α) : Plot.Panel α :=
  { p with xLabel := "", yLabel := "", curves := p.curves.map Plot.Curve.unclipped }

namespace Analysis

/-- Settings that ask for fits of the same degrees. -/
structure SameDegrees (a b : AnalysisSettings) : Prop where
  time : a.timeDegree = b.timeDegree
  derivative : a.effectiveDerivativeDegree = b.effectiveDerivativeDegree

/-- A panel that shows measured values under a ceiling, and then fits that
nothing is hidden of. -/
structure Measures (xs ys : List Float) (ceiling : Option Float) (p : Plot.Panel Float) :
    Prop where
  measured : ∃ raw, p.curves.head? = some raw ∧ raw.line = .solid ∧ raw.xs = xs ∧ raw.ys = ys ∧
    raw.ceiling = ceiling
  fitted : ∀ c ∈ p.curves.tail, c.line = .dashed ∧ c.ceiling = none ∧ c.visible = c.xs.zip c.ys

/-- The panels of a series: all times without a ceiling, and all derivatives, if
there are any, under the ceiling of the settings. -/
structure Presents (s : Series) (settings : AnalysisSettings) (panels : List (Plot.Panel Float)) :
    Prop where
  length : panels.length = if s.derivatives.isSome then 2 else 1
  times : ∀ p, panels[0]? = some p → p.xLabel = settings.labels.input ∧
    p.yLabel = settings.labels.time ∧ Measures s.xs s.times none p
  derivatives : ∀ p, panels[1]? = some p → p.xLabel = settings.labels.input ∧
    p.yLabel = settings.labels.derivative ∧
    ∃ ds, s.derivatives = some ds ∧ Measures s.xs ds settings.displayCeiling p

variable {s : Series} {a b : AnalysisSettings}

/-! ## Fits and panels -/

theorem SameDegrees.fits_eq (h : SameDegrees a b) (solve : Polynomial.Solver Float) (s : Series) :
    SeriesFits.ofSeries solve s a = SeriesFits.ofSeries solve s b := by
  unfold SeriesFits.ofSeries
  rw [h.time, h.derivative]

theorem SameDegrees.ofSeries_eq (h : SameDegrees a b) (solve : Polynomial.Solver Float)
    (s : Series) : ofSeries solve s a = ofSeries solve s b := by
  unfold ofSeries
  rw [h.fits_eq solve s]

/-- Only captions and ceilings of the panels depend on the rest of the settings. -/
theorem map_bare_panels (s : Series) (fits : SeriesFits) (a b : AnalysisSettings) :
    (panels s fits a).map Plot.Panel.bare = (panels s fits b).map Plot.Panel.bare := by
  have htime : (timePanel s fits a).bare = (timePanel s fits b).bare := rfl
  have hderivative : ∀ ds,
      (derivativePanel s ds fits a).bare = (derivativePanel s ds fits b).bare :=
    fun _ => rfl
  unfold panels
  rw [List.map_cons, List.map_cons, htime]
  cases s.derivatives with
  | none => rfl
  | some ds =>
      cases fits.derivative with
      | none => rfl
      | some r =>
          dsimp only
          rw [List.map_singleton, List.map_singleton, hderivative]

theorem visible_of_unclipped {c : Plot.Curve Float} (h : c.ceiling = none) :
    c.visible = c.xs.zip c.ys := by
  unfold Plot.Curve.visible Plot.visiblePoints
  rw [h]
  exact List.filter_true _

theorem measures_panel (xLabel yLabel label : String) (xs ys : List Float)
    (ceiling : Option Float) (fit : Option (Fit Float)) :
    Measures xs ys ceiling (panel xLabel yLabel xs (measured xs ys label ceiling) fit) := by
  refine ⟨⟨measured xs ys label ceiling, rfl, rfl, rfl, rfl, rfl⟩, ?_⟩
  intro c hc
  have hfitted : c ∈ (fit.map (overlay xs)).toList := hc
  rw [Option.mem_toList, Option.map_eq_some_iff] at hfitted
  obtain ⟨f, -, rfl⟩ := hfitted
  exact ⟨rfl, rfl, visible_of_unclipped rfl⟩

theorem presents_panels (solve : Polynomial.Solver Float) (s : Series)
    (settings : AnalysisSettings) :
    Presents s settings (panels s (.ofSeries solve s settings) settings) := by
  refine ⟨length_panels solve s settings, ?_, ?_⟩
  · intro p hp
    obtain rfl := Option.some.inj hp
    exact ⟨rfl, rfl, measures_panel _ _ _ _ _ _ _⟩
  · intro p hp
    unfold panels SeriesFits.ofSeries at hp
    cases hderivatives : s.derivatives with
    | none =>
        rw [hderivatives] at hp
        cases hp
    | some ds =>
        rw [hderivatives] at hp
        obtain rfl := Option.some.inj hp
        exact ⟨rfl, rfl, ds, rfl, measures_panel _ _ _ _ _ _ _⟩

/-! ## Runs -/

section Runs

variable {solve : Polynomial.Solver Float} {σ : Type} {read : FileReader (StateM σ)} {st : σ}
  {files : Path → Except FileError String} {path : Path} {settings : AnalysisSettings}

/-- An analysis of a series that loads shows a figure exactly if a fit succeeds. -/
theorem hands_run_of_loads (hvalid : settings.Valid)
    (hload : (Series.load read path).run.run st = (.ok s, st))
    (hdraws : (SeriesFits.ofSeries solve s settings).AnySucceeded →
      ∃ figure, drawn solve s settings = .ok figure) :
    ∃ figure, (figure.isSome ↔ (SeriesFits.ofSeries solve s settings).AnySucceeded) ∧
      (∀ f, figure = some f → drawn solve s settings = .ok f) ∧
      Viewer.Hands (fun viewer => run solve read viewer path settings) st figure
        (.ok (ofSeries solve s settings)) := by
  simp only [run_of_valid (AnalysisSettings.fault?_eq_none_iff.mpr hvalid)]
  by_cases hany : (SeriesFits.ofSeries solve s settings).AnySucceeded
  · obtain ⟨figure, hdraw⟩ := hdraws hany
    refine ⟨some figure, by simpa using hany, ?_, ?_⟩
    · intro f hf
      obtain rfl := Option.some.inj hf
      exact hdraw
    · refine Viewer.Hands.after hload ?_
      simp only [if_pos (SeriesFits.anySucceeded_iff.mpr hany)]
      exact Viewer.hands_render hdraw _ st
  · refine ⟨none, by simpa using hany, nofun, Viewer.Hands.after hload ?_⟩
    rw [← SeriesFits.anySucceeded_iff] at hany
    simp only [if_neg hany]
    exact fun _ => rfl

/-- What two analyses have in common that agree on their degrees: the answer,
whether there is a figure, and the report. -/
structure Agree (solve : Polynomial.Solver Float) (read : FileReader (StateM σ))
    (files : Path → Except FileError String) (st : σ) (path : Path) (a b : AnalysisSettings)
    (r : Except Error Analysis)
    (shownA shownB : Option Plot.Figure) : Prop where
  /-- The file does not load, or both analyses have its size and its fits. -/
  answer : (∃ e, Series.LoadFault files path e ∧ r = .error e) ∨
    ∃ s, Series.Loads files path s ∧ r = .ok (ofSeries solve s a) ∧ r = .ok (ofSeries solve s b)
  shown : shownA.isSome ↔ shownB.isSome
  /-- The figures are those of the panels. -/
  drawnA : ∀ figure, shownA = some figure → ∃ s, Series.Loads files path s ∧
    drawn solve s a = .ok figure
  drawnB : ∀ figure, shownB = some figure → ∃ s, Series.Loads files path s ∧
    drawn solve s b = .ok figure
  runA : Viewer.Hands (fun viewer => run solve read viewer path a) st shownA r
  runB : Viewer.Hands (fun viewer => run solve read viewer path b) st shownB r
  reportA : Viewer.Hands (fun viewer => runReport solve read viewer path a) st shownA
    (r >>= fun done => done.report.mapError .fit)
  reportB : Viewer.Hands (fun viewer => runReport solve read viewer path b) st shownB
    (r >>= fun done => done.report.mapError .fit)

theorem exists_agree (hfinds : read.Finds st files) (path : Path) (ha : a.Valid) (hb : b.Valid)
    (hsame : SameDegrees a b)
    (hdraws : ∀ s, Series.Loads files path s → (SeriesFits.ofSeries solve s a).AnySucceeded →
      (∃ figure, drawn solve s a = .ok figure) ∧ ∃ figure, drawn solve s b = .ok figure) :
    ∃ r shownA shownB, Agree solve read files st path a b r shownA shownB := by
  rcases Series.load_cases hfinds path with ⟨s, hload, hs⟩ | ⟨e, hload, hfault⟩
  · have hfits := hsame.fits_eq solve s
    obtain ⟨shownA, hanyA, hdrawnA, hrunA⟩ :=
      hands_run_of_loads ha hload fun hany => (hdraws s hs hany).1
    obtain ⟨shownB, hanyB, hdrawnB, hrunB⟩ :=
      hands_run_of_loads hb hload fun hany => (hdraws s hs (hfits ▸ hany)).2
    rw [← hfits] at hanyB
    rw [← hsame.ofSeries_eq solve s] at hrunB
    refine ⟨.ok (ofSeries solve s a), shownA, shownB, ?_, hanyA.trans hanyB.symm, ?_, ?_, hrunA,
      hrunB, hrunA.bind _, hrunB.bind _⟩
    · exact Or.inr ⟨s, hs, rfl, by rw [hsame.ofSeries_eq solve s]⟩
    · exact fun figure hfigure => ⟨s, hs, hdrawnA figure hfigure⟩
    · exact fun figure hfigure => ⟨s, hs, hdrawnB figure hfigure⟩
  · have hrun : ∀ settings : AnalysisSettings, settings.Valid →
        Viewer.Hands (fun viewer => run solve read viewer path settings) st none (.error e) := by
      intro settings hvalid
      simp only [run_of_valid (AnalysisSettings.fault?_eq_none_iff.mpr hvalid)]
      exact Viewer.hands_of_error hload _
    exact ⟨.error e, none, none, Or.inl ⟨e, hfault, rfl⟩, Iff.rfl, nofun, nofun, hrun a ha,
      hrun b hb, (hrun a ha).bind _, (hrun b hb).bind _⟩

/-- **Presentation never reaches the fits**: two analyses of a file with the same
degrees and the same solver agree on everything but the figure, and the panels of
their figures differ in captions and in the ceiling of the derivatives only. Drawing
is taken to return for both, since a figure of one may be too wide. -/
theorem presentation_never_reaches_fits (hfinds : read.Finds st files) (path : Path)
    (ha : a.Valid) (hb : b.Valid) (hsame : SameDegrees a b)
    (hdraws : ∀ s, Series.Loads files path s → (SeriesFits.ofSeries solve s a).AnySucceeded →
      (∃ figure, drawn solve s a = .ok figure) ∧ ∃ figure, drawn solve s b = .ok figure) :
    (∃ r shownA shownB, Agree solve read files st path a b r shownA shownB) ∧
    ∀ s, Presents s a (panels s (.ofSeries solve s a) a) ∧
      Presents s b (panels s (.ofSeries solve s b) b) ∧
      (panels s (.ofSeries solve s a) a).map Plot.Panel.bare =
        (panels s (.ofSeries solve s b) b).map Plot.Panel.bare := by
  refine ⟨exists_agree hfinds path ha hb hsame hdraws, ?_⟩
  intro s
  refine ⟨presents_panels solve s a, presents_panels solve s b, ?_⟩
  rw [hsame.fits_eq solve s]
  exact map_bare_panels s _ a b

/-- Four runs whose second derivative is above the ceiling of one analysis and in the
figure of the other, with other captions and another size: it is fitted in both. -/
theorem presentation_never_reaches_fits_four_runs :
    let files : Path → Except FileError String := fun _ => .ok fourRuns
    let solve := Polynomial.Rotations.solve
    let s := fourRunsSeries ⟨"runs.csv"⟩
    let a : AnalysisSettings := { timeDegree := 0 }
    let b : AnalysisSettings :=
      { timeDegree := 0, derivativeDegree := some 0, displayCeiling := none,
        labels := { time := "t" }, figure := { panelWidth := 200 } }
    FileReader.Finds (.ofFiles files) () files ∧ a.Valid ∧ b.Valid ∧ SameDegrees a b ∧
      (derivativePanel s [0, 9, 1, 2] (.ofSeries solve s a) a).curves.map
        (fun c => c.visible) =
          [[(1, 0), (3, 1), (4, 2)], [(1, 3), (2, 3), (3, 3), (4, 3)]] ∧
      (derivativePanel s [0, 9, 1, 2] (.ofSeries solve s b) b).curves.map
        (fun c => c.visible) =
          [[(1, 0), (2, 9), (3, 1), (4, 2)], [(1, 3), (2, 3), (3, 3), (4, 3)]] ∧
      (∃ r shownA shownB, Agree solve (.ofFiles files) files () ⟨"runs.csv"⟩ a b r shownA shownB) ∧
      (panels s (.ofSeries solve s a) a).map Plot.Panel.bare =
        (panels s (.ofSeries solve s b) b).map Plot.Panel.bare := by
  intro files solve s a b
  have hfinds : FileReader.Finds (.ofFiles files) () files := FileReader.finds_ofFiles files ()
  have ha : a.Valid := AnalysisSettings.fault?_eq_none_iff.mp (by decide +kernel)
  have hb : b.Valid := AnalysisSettings.fault?_eq_none_iff.mp (by decide +kernel)
  have hsame : SameDegrees a b := ⟨rfl, rfl⟩
  have hderivative : ∀ settings : AnalysisSettings, settings.effectiveDerivativeDegree = 0 →
      (SeriesFits.ofSeries solve s settings).derivative? = some fourRunsDerivative :=
    fun _ h => SeriesFits.derivative?_eq_some_iff.mpr (SeriesFits.derivative_fourRuns h)
  have hdraws : ∀ s', Series.Loads files ⟨"runs.csv"⟩ s' →
      (SeriesFits.ofSeries solve s' a).AnySucceeded →
      (∃ figure, drawn solve s' a = .ok figure) ∧ ∃ figure, drawn solve s' b = .ok figure := by
    intro s' hs' _
    obtain rfl := loads_fourRuns_iff.mp hs'
    exact ⟨exists_drawn_fourRuns (Or.inl rfl) rfl (by decide),
      exists_drawn_fourRuns (Or.inl rfl) rfl (by decide)⟩
  obtain ⟨hagree, hpanels⟩ :=
    presentation_never_reaches_fits hfinds ⟨"runs.csv"⟩ ha hb hsame hdraws
  refine ⟨hfinds, ha, hb, hsame, ?_, ?_, hagree, (hpanels s).2.2⟩
  · unfold derivativePanel
    rw [hderivative a rfl]
    decide +kernel
  · unfold derivativePanel
    rw [hderivative b rfl]
    decide +kernel

end Runs

end Analysis

end GrowthCurve
