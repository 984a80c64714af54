import Mathlib
import GrowthCurve.Proofs.Analysis.Panels

/-!
# Columns and panels fit together

No file can make a run fail with an error that says that columns are of different
lengths, or that panels pair what does not belong together.
-/

namespace GrowthCurve

/-- Errors about columns of different lengths and about panels with such columns. -/
inductive Error.Internal : Error → Prop where
  | lengths (xs ys : ℕ) : Internal (.fit (.lengthMismatch xs ys))
  | panels (reason : String) : Internal (.invalidPanels reason)

/-- The viewer raises no internal errors by itself. -/
def Viewer.Consistent {σ : Type} (viewer : Viewer (StateM σ)) : Prop :=
  ∀ figure st st' e, (viewer figure).run.run st = (.error e, st') → ¬ e.Internal

theorem Viewer.gallery_consistent : Viewer.gallery.Consistent := by
  intro figure st st' e h
  rw [Viewer.run_gallery] at h
  cases h

/-! ## Runs -/

section Runs

variable {solve : Polynomial.Solver Float} {σ : Type} {read : FileReader (StateM σ)}
  {viewer : Viewer (StateM σ)} {st st' : σ}

theorem Error.not_internal_ofDrawError {panels : List (Plot.Panel Float)}
    {size : Plot.FigureSize} {e : Plot.DrawError} (hfault : Plot.panelsFault? panels = none)
    (h : Plot.draw panels size = .error e) : ¬ (Error.ofDrawError e).Internal := by
  obtain ⟨halt, rfl, -⟩ := Plot.halts_of_drawWith hfault h
  rintro ⟨⟩

theorem Error.not_internal_of_unloadable {path : Path} {e : Error}
    (h : Series.Unloadable path e) : ¬ e.Internal := by
  cases h with
  | file cause => rintro ⟨⟩
  | malformed m => rintro ⟨⟩

theorem Analysis.Ends.not_internal {path : Path} {settings : AnalysisSettings}
    {r : Except Error Analysis} (hviewer : viewer.Consistent)
    (h : Ends solve read viewer path settings st r st') : ∀ e, r = .error e → ¬ e.Internal := by
  intro e he
  cases h with
  | refused fault _ =>
      obtain rfl := Except.error.inj he
      rintro ⟨⟩
  | unloaded _ hload =>
      obtain rfl := Except.error.inj he
      exact Error.not_internal_of_unloadable (Series.unloadable_of_load hload)
  | unfitted _ _ _ => cases he
  | undrawn _ hload _ hdraw =>
      obtain rfl := Except.error.inj he
      exact Error.not_internal_ofDrawError
        (panelsFault?_panels solve (Series.aligned_of_load hload) settings) hdraw
  | shown _ _ _ _ hview =>
      rw [Except.map_eq_error_iff.mp he] at hview
      exact hviewer _ _ _ _ hview

theorem Analysis.Ends.fits_consistent {path : Path} {settings : AnalysisSettings}
    {r : Except Error Analysis} (h : Ends solve read viewer path settings st r st') :
    ∀ a, r = .ok a → a.fits.Consistent := by
  intro a ha
  cases h with
  | refused _ _ => cases ha
  | unloaded _ _ => cases ha
  | unfitted _ hload _ =>
      obtain rfl := Except.ok.inj ha
      exact SeriesFits.consistent_ofSeries (Series.aligned_of_load hload)
  | undrawn _ _ _ _ => cases ha
  | shown _ hload _ _ _ =>
      obtain ⟨_, -, rfl⟩ := Except.map_eq_ok_iff.mp ha
      exact SeriesFits.consistent_ofSeries (Series.aligned_of_load hload)

theorem Analysis.not_internal_of_report {a : Analysis} {e : FitError Float}
    (hfits : a.fits.Consistent) (h : a.report = .error e) : ¬ (Error.fit e).Internal := by
  rintro ⟨n, k⟩
  cases Analysis.report_eq_error_iff.mp h with
  | time htime => exact hfits.time n k htime
  | derivative _ hderivative => exact hfits.derivative n k hderivative

theorem Comparison.Ends.not_internal {paths : List Path} {settings : ComparisonSettings}
    {r : Except Error (List Series)} (hviewer : viewer.Consistent)
    (h : Ends read viewer paths settings st r st') : ∀ e, r = .error e → ¬ e.Internal := by
  intro e he
  cases h with
  | refused fault _ =>
      obtain rfl := Except.error.inj he
      rintro ⟨⟩
  | unloaded _ hload =>
      obtain rfl := Except.error.inj he
      rcases Series.loadAll_cases read paths st with ⟨_, _, hok, -⟩ | ⟨_, _, _, herror, hblamed⟩
      · cases hload.symm.trans hok
      · cases hload.symm.trans herror
        exact Error.not_internal_of_unloadable hblamed
  | undrawn _ hload hdraw =>
      obtain rfl := Except.error.inj he
      rcases Series.loadAll_cases read paths st with ⟨_, _, hok, hread⟩ | ⟨_, _, _, herror, -⟩
      · cases hload.symm.trans hok
        refine Error.not_internal_ofDrawError (panelsFault?_panel ?_ _ _) hdraw
        intro s hs
        obtain ⟨path, text, htext⟩ := hread s hs
        exact Series.aligned_of_read htext
      · cases hload.symm.trans herror
  | shown _ _ _ hview =>
      rw [Except.map_eq_error_iff.mp he] at hview
      exact hviewer _ _ _ _ hview

/-- **Files raise no internal error**: no file, no settings, no solver and no
consistent viewer lead a run to an internal error. Columns that are read are of one
length, fits have one prediction for each abscissa, and the panels that are made
of them are accepted. -/
theorem files_raise_no_internal_error (solve : Polynomial.Solver Float)
    (read : FileReader (StateM σ)) (viewer : Viewer (StateM σ)) (hviewer : viewer.Consistent) :
    (∀ path settings st st' e,
      (Analysis.run solve read viewer path settings).run.run st = (.error e, st') →
        ¬ e.Internal) ∧
    (∀ path settings st st' e,
      (Analysis.runReport solve read viewer path settings).run.run st = (.error e, st') →
        ¬ e.Internal) ∧
    (∀ paths settings st st' e,
      (Comparison.run read viewer paths settings).run.run st = (.error e, st') →
        ¬ e.Internal) ∧
    (∀ path settings st st' a,
      (Analysis.run solve read viewer path settings).run.run st = (.ok a, st') →
        a.fits.Consistent) ∧
    (∀ path text s, Series.read path text = .ok s → s.Aligned ∧
      ∀ settings, (SeriesFits.ofSeries solve s settings).Predicts s.xs ∧
        Plot.panelsFault? (Analysis.panels s (.ofSeries solve s settings) settings) = none) ∧
    (∀ series : List Series, (∀ s ∈ series, ∃ path text, Series.read path text = .ok s) →
      ∀ labels axes, Plot.panelsFault? [Comparison.panel series labels axes] = none) := by
  refine ⟨?_, ?_, ?_, ?_, ?_, ?_⟩
  · intro path settings st st' e h
    obtain ⟨r, st₁, hrun, hends⟩ := Analysis.exists_ends solve read viewer path settings st
    cases h.symm.trans hrun
    exact hends.not_internal hviewer e rfl
  · intro path settings st st' e h
    obtain ⟨r, st₁, hrun, hends⟩ := Analysis.exists_ends solve read viewer path settings st
    rw [Analysis.run_runReport hrun, Prod.mk.injEq] at h
    rcases Except.bind_eq_error_iff.mp h.1 with hr | ⟨a, ha, hreport⟩
    · exact hends.not_internal hviewer e hr
    · obtain ⟨cause, hcause, rfl⟩ := Except.mapError_eq_error_iff.mp hreport
      exact Analysis.not_internal_of_report (hends.fits_consistent a ha) hcause
  · intro paths settings st st' e h
    obtain ⟨r, st₁, hrun, hends⟩ := Comparison.exists_ends read viewer paths settings st
    cases h.symm.trans hrun
    exact hends.not_internal hviewer e rfl
  · intro path settings st st' a h
    obtain ⟨r, st₁, hrun, hends⟩ := Analysis.exists_ends solve read viewer path settings st
    cases h.symm.trans hrun
    exact hends.fits_consistent a rfl
  · intro path text s h
    refine ⟨Series.aligned_of_read h, ?_⟩
    intro settings
    exact ⟨SeriesFits.predicts_ofSeries solve s settings,
      Analysis.panelsFault?_panels solve (Series.aligned_of_read h) settings⟩
  · intro series hread labels axes
    refine Comparison.panelsFault?_panel ?_ labels axes
    intro s hs
    obtain ⟨path, text, htext⟩ := hread s hs
    exact Series.aligned_of_read htext

/-- Four runs of which a time fit of degree four asks too much, and a gallery. The
analysis shows its two panels and says which fit failed, and the error of the report
is about that fit. -/
theorem files_raise_no_internal_error_four_runs :
    let read : FileReader (StateM (List Plot.Figure)) := .ofFiles fun _ => .ok fourRuns
    let settings : AnalysisSettings := { timeDegree := 4, derivativeDegree := some 0 }
    let solve := Polynomial.Rotations.solve
    let s := fourRunsSeries ⟨"runs.csv"⟩
    let a := Analysis.ofSeries solve s settings
    Viewer.gallery.Consistent ∧ a.fits.time = .error (.insufficientData 5 4) ∧
    a.fits.derivative = some (.ok fourRunsDerivative) ∧ a.fits.Consistent ∧
    Plot.panelsFault? (Analysis.panels s a.fits settings) = none ∧
    ∃ figure, figure.frames.length = 2 ∧
      (Analysis.run solve read Viewer.gallery ⟨"runs.csv"⟩ settings).run.run [] =
        (.ok a, [figure]) ∧
      (Analysis.runReport solve read Viewer.gallery ⟨"runs.csv"⟩ settings).run.run [] =
        (.error (.fit (.insufficientData 5 4)), [figure]) ∧
      ¬ (Error.fit (.insufficientData 5 4)).Internal := by
  intro read settings solve s a
  have htime : a.fits.time = .error (.insufficientData 5 4) :=
    SeriesFits.time_fourRuns_of_four solve rfl
  have hvalid : settings.Valid := AnalysisSettings.fault?_eq_none_iff.mp (by decide +kernel)
  have hload : (Series.load read ⟨"runs.csv"⟩).run.run [] = (.ok s, []) :=
    Series.run_load_of_loads (FileReader.finds_ofFiles _ []) (loads_fourRuns_iff.mpr rfl)
  obtain ⟨figure, hdraw⟩ : ∃ figure, Analysis.drawn solve s settings = .ok figure :=
    Analysis.exists_drawn_fourRuns (Or.inr rfl) rfl (by decide)
  have hview : (Viewer.gallery figure).run.run [] = (.ok (), [figure]) :=
    Viewer.run_gallery figure []
  have hrun : (Analysis.run solve read Viewer.gallery ⟨"runs.csv"⟩ settings).run.run [] =
      (.ok a, [figure]) := Analysis.run_of_attended
    (.shown hvalid hload (SeriesFits.anySucceeded_fourRuns rfl) hdraw hview)
  have hreport : (Analysis.runReport solve read Viewer.gallery ⟨"runs.csv"⟩ settings).run.run [] =
      (.error (.fit (.insufficientData 5 4)), [figure]) := by
    rw [Analysis.run_runReport hrun, Except.ok_bind,
      Analysis.report_eq_error_iff.mpr (.time htime)]
    rfl
  obtain ⟨-, hinternal, -, hconsistent, hpanels, -⟩ :=
    files_raise_no_internal_error solve read Viewer.gallery Viewer.gallery_consistent
  exact ⟨Viewer.gallery_consistent, htime, SeriesFits.derivative_fourRuns rfl,
    hconsistent _ _ _ _ _ hrun, ((hpanels _ _ _ (read_fourRuns _)).2 settings).2, figure,
    Analysis.length_frames_of_drawn hdraw, hrun, hreport, hinternal _ _ _ _ _ hreport⟩

end Runs

end GrowthCurve
