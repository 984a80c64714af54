import Mathlib
import GrowthCurve.Proofs.Analysis.Panels

/-!
# Full and partial reports

The full report of an analysis is its partial report behind a header. Without a
full report there is the error of the fit that failed first, and the partial
report still holds the lines of the other one. A caller sees that error only
after the figure of the other fit was shown.
-/

namespace GrowthCurve

/-! ## Lines of a report -/

/-- The lines one after the other, each ended by a line feed. -/
def Text.ended (lines : List String) : String :=
  lines.foldr (fun line text => line ++ "\n" ++ text) ""

namespace Text

@[simp] theorem ended_nil : ended [] = "" := rfl

@[simp] theorem ended_cons (line : String) (lines : List String) :
    ended (line :: lines) = line ++ "\n" ++ ended lines := rfl

theorem ended_append (lines lines' : List String) :
    ended (lines ++ lines') = ended lines ++ ended lines' := by
  induction lines with
  | nil => simp
  | cons line lines ih => simp [ih, String.append_assoc]

end Text

/-- What a report tells of a fit, in two lines. -/
def Fit.told (name : String) (f : Fit Float) : List String :=
  [name ++ " fit (degree " ++ toString f.degree ++ "): r^2 = " ++ Decimal.fixed 6 f.rSquared,
   "  " ++ f.equation]

theorem FitSummary.lines_ofFit (name : String) (f : Fit Float) :
    (FitSummary.ofFit f).lines name = Text.ended (f.told name) := by
  have hbreak : "\n  " ++ (f.equation ++ "\n") = "\n" ++ ("  " ++ (f.equation ++ "\n")) :=
    @String.append_assoc "\n" "  " _
  simp [FitSummary.lines, FitSummary.ofFit, Fit.told, String.append_assoc, hbreak]

/-- The lines on the fits that succeeded, the times before the derivatives. -/
inductive SeriesFits.Tells (f : SeriesFits) : List String → Prop where
  | both {time derivative : Fit Float} (htime : f.time = .ok time)
      (hderivative : f.derivative = some (.ok derivative)) :
      Tells f (time.told "time" ++ derivative.told "derivative")
  | time {time : Fit Float} (htime : f.time = .ok time)
      (hderivative : ∀ derivative, f.derivative ≠ some (.ok derivative)) :
      Tells f (time.told "time")
  | derivative {derivative : Fit Float} (htime : ∀ time, f.time ≠ .ok time)
      (hderivative : f.derivative = some (.ok derivative)) :
      Tells f (derivative.told "derivative")
  | nothing (htime : ∀ time, f.time ≠ .ok time)
      (hderivative : ∀ derivative, f.derivative ≠ some (.ok derivative)) :
      Tells f []

namespace Analysis

/-- The first line of a report. -/
def header (a : Analysis) : String :=
  a.source.text ++ " (" ++ toString a.samples ++ " samples)"

theorem exists_tells (a : Analysis) :
    ∃ lines, a.fits.Tells lines ∧ a.partialText = Text.ended lines := by
  unfold partialText
  cases htime : a.fits.time? with
  | none =>
      have htime' : ∀ time, a.fits.time ≠ .ok time := by
        simp [← SeriesFits.time?_eq_some_iff, htime]
      cases hderivative : a.fits.derivative? with
      | none =>
          have hderivative' : ∀ derivative, a.fits.derivative ≠ some (.ok derivative) := by
            simp [← SeriesFits.derivative?_eq_some_iff, hderivative]
          exact ⟨_, .nothing htime' hderivative', rfl⟩
      | some derivative =>
          refine ⟨_, .derivative htime' (SeriesFits.derivative?_eq_some_iff.mp hderivative), ?_⟩
          rw [← FitSummary.lines_ofFit]
          exact String.empty_append
  | some time =>
      have htime' := SeriesFits.time?_eq_some_iff.mp htime
      cases hderivative : a.fits.derivative? with
      | none =>
          have hderivative' : ∀ derivative, a.fits.derivative ≠ some (.ok derivative) := by
            simp [← SeriesFits.derivative?_eq_some_iff, hderivative]
          refine ⟨_, .time htime' hderivative', ?_⟩
          rw [← FitSummary.lines_ofFit]
          exact String.append_empty
      | some derivative =>
          refine ⟨_, .both htime' (SeriesFits.derivative?_eq_some_iff.mp hderivative), ?_⟩
          rw [Text.ended_append, ← FitSummary.lines_ofFit, ← FitSummary.lines_ofFit]
          rfl

theorem text_of_report {a : Analysis} {r : Report} (h : a.report = .ok r) :
    r.text = Text.ended [a.header] ++ a.partialText := by
  obtain ⟨time, derivative, htime, hderivative, rfl⟩ := report_eq_ok_iff.mp h
  have hderivative' : a.fits.derivative? = derivative := by
    unfold SeriesFits.derivative?
    rw [hderivative]
    cases derivative <;> rfl
  unfold partialText
  rw [SeriesFits.time?_eq_some_iff.mpr htime, hderivative']
  simp [Report.text, Report.ofFits, partialReport, header, String.append_assoc]

/-! ## Errors of a report -/

section Runs

variable {solve : Polynomial.Solver Float} {σ : Type} {read : FileReader (StateM σ)}
  {viewer : Viewer (StateM σ)} {path : Path} {settings : AnalysisSettings} {st st' : σ}
  {s : Series} {v : Except Error Unit}

theorem runReport_of_attended (h : Attended solve read viewer path settings st s v st') :
    (runReport solve read viewer path settings).run.run st =
      (v >>= fun _ => (ofSeries solve s settings).report.mapError .fit, st') := by
  rw [run_runReport (run_of_attended h)]
  cases v <;> rfl

/-- An error of a fit comes from the viewer or after it. -/
theorem attended_of_fit_error {cause : FitError Float}
    (h : (runReport solve read viewer path settings).run.run st = (.error (.fit cause), st')) :
    ∃ s v, Attended solve read viewer path settings st s v st' ∧
      (v = .error (.fit cause) ∨
        v = .ok () ∧ (SeriesFits.ofSeries solve s settings).FirstError cause) := by
  obtain ⟨r, st₁, hrun, hends⟩ := exists_ends solve read viewer path settings st
  rw [run_runReport hrun] at h
  have hreport : ∀ {s : Series}, (ofSeries solve s settings).report.mapError Error.fit =
      .error (.fit cause) → (SeriesFits.ofSeries solve s settings).FirstError cause := by
    intro s hs
    obtain ⟨e, he, hcause⟩ := Except.mapError_eq_error_iff.mp hs
    obtain rfl := Error.fit.inj hcause
    exact report_eq_error_iff.mp he
  obtain ⟨herror, rfl⟩ := Prod.mk.inj h
  cases hends with
  | refused _ _ => cases herror
  | unloaded _ hload =>
      obtain rfl := Except.error.inj herror
      nomatch Series.unloadable_of_load hload
  | unfitted hvalid hload hfailed =>
      exact ⟨_, _, .unfitted hvalid hload hfailed, Or.inr ⟨rfl, hreport herror⟩⟩
  | @undrawn _ _ e _ _ _ _ => cases e <;> cases herror
  | @shown _ _ _ _ v hvalid hload hany hdraw hview =>
      refine ⟨_, v, .shown hvalid hload hany hdraw hview, ?_⟩
      cases v with
      | error e =>
          obtain rfl := Except.error.inj herror
          exact Or.inl rfl
      | ok _ => exact Or.inr ⟨rfl, hreport herror⟩

end Runs

/-- **Full and partial reports agree**: the full report exists exactly if every fit
succeeded, and is the partial one behind a header; else the first error is given,
and what is told is the lines of the fits that succeeded. In a run with any solver
a viewer that fails comes before either, and the error of a fit is only given once
the figure of the other one was shown. -/
theorem full_and_partial_reports_agree :
    (∀ a : Analysis,
      ((∃ r, a.report = .ok r) ↔ a.fits.AllSucceeded) ∧
      (∀ r, a.report = .ok r → r.text = Text.ended [a.header] ++ a.partialText) ∧
      (∀ e, a.report = .error e ↔ a.fits.FirstError e) ∧
      ∃ lines, a.fits.Tells lines ∧ a.partialText = Text.ended lines) ∧
    ∀ {σ : Type} (solve : Polynomial.Solver Float) (read : FileReader (StateM σ))
      (viewer : Viewer (StateM σ)) (path : Path) (settings : AnalysisSettings) (st : σ),
      (∀ s e st', Attended solve read viewer path settings st s (.error e) st' →
        (runReport solve read viewer path settings).run.run st = (.error e, st')) ∧
      (∀ s st', Attended solve read viewer path settings st s (.ok ()) st' →
        (runReport solve read viewer path settings).run.run st =
          ((ofSeries solve s settings).report.mapError .fit, st')) ∧
      ∀ cause st',
        (runReport solve read viewer path settings).run.run st = (.error (.fit cause), st') →
        ∃ s v, Attended solve read viewer path settings st s v st' ∧
          (v = .error (.fit cause) ∨
            v = .ok () ∧ (SeriesFits.ofSeries solve s settings).FirstError cause) := by
  constructor
  · intro a
    exact ⟨exists_report_iff, fun _ => text_of_report, fun _ => report_eq_error_iff, exists_tells a⟩
  · intro σ solve read viewer path settings st
    exact ⟨fun _ _ _ => runReport_of_attended, fun _ _ => runReport_of_attended,
      fun _ _ => attended_of_fit_error⟩

/-- Four runs are too few for a time fit of degree four, and their derivatives have a
mean. A viewer that fails hides that, and else the mean is shown and told. -/
theorem full_and_partial_reports_agree_four_runs :
    let files : Path → Except FileError String := fun _ => .ok fourRuns
    let settings : AnalysisSettings := { timeDegree := 4, derivativeDegree := some 0 }
    let solve := Polynomial.Rotations.solve
    let s := fourRunsSeries ⟨"runs.csv"⟩
    let a := ofSeries solve s settings
    a.report = .error (.insufficientData 5 4) ∧
    a.partialText = "derivative fit (degree 0): r^2 = 0.000000\n  y = 3.000e0\n" ∧
    ((runReport solve (.ofFiles files) (fun _ => throw (.rendering "closed")) ⟨"runs.csv"⟩
      settings : ExceptT Error (StateM Unit) Report).run.run () =
        (.error (.rendering "closed"), ())) ∧
    ∃ figure, (runReport solve (.ofFiles files) Viewer.gallery ⟨"runs.csv"⟩ settings).run.run [] =
      (.error (.fit (.insufficientData 5 4)), [figure]) := by
  intro files settings solve s a
  have hvalid : settings.Valid := AnalysisSettings.fault?_eq_none_iff.mp (by decide +kernel)
  have hload : ∀ {σ : Type} (st : σ),
      (Series.load (FileReader.ofFiles (m := StateM σ) files) ⟨"runs.csv"⟩).run.run st =
        (.ok s, st) := fun st =>
    Series.run_load_of_loads (FileReader.finds_ofFiles files st) (loads_fourRuns_iff.mpr rfl)
  have hany : (SeriesFits.ofSeries solve s settings).AnySucceeded :=
    SeriesFits.anySucceeded_fourRuns rfl
  obtain ⟨figure, hdraw⟩ : ∃ figure, drawn solve s settings = .ok figure :=
    exists_drawn_fourRuns (Or.inr rfl) rfl (by decide)
  obtain ⟨hreports, hruns⟩ := full_and_partial_reports_agree
  obtain ⟨-, -, herror, -⟩ := hreports a
  have hreport : a.report = .error (.insufficientData 5 4) :=
    (herror _).mpr (.time (SeriesFits.time_fourRuns_of_four solve rfl))
  have htold : a.partialText = partialReport none (some fourRunsDerivative) := by
    have htime : a.fits.time? = none := rfl
    have hderivative : a.fits.derivative? = some fourRunsDerivative :=
      SeriesFits.derivative?_eq_some_iff.mpr (SeriesFits.derivative_fourRuns rfl)
    unfold partialText
    rw [htime, hderivative]
  refine ⟨hreport, htold.trans (by decide +kernel), ?_, figure, ?_⟩
  · exact (hruns _ _ _ _ _ _).1 s _ _ (.shown hvalid (hload ()) hany hdraw rfl)
  · rw [(hruns _ _ _ _ _ _).2.1 s _ (.shown hvalid (hload []) hany hdraw rfl)]
    exact congrArg (fun r => (Except.mapError Error.fit r, [figure])) hreport

end Analysis

end GrowthCurve
