import Mathlib
import GrowthCurve.Proofs.Analysis.Panels
import GrowthCurve.Proofs.CommandLine.Preparation

/-!
# How an analysis on a terminal ends

It stops before anything is told, or it tells the fits that there are and fails,
or it tells the full report. A figure is written before any of them is told. If
the drawing halts, then so does the run, and nothing is written at all.
-/

namespace GrowthCurve

/-- The input gives a line or is at its end. -/
def Terminal.Answers (t : Terminal) : Prop :=
  ∃ line, Terminal.textOf (Terminal.splitLine t.input).1 = .ok line

namespace CommandLine

/-! ## Figures on a terminal -/

/-- The terminal after a figure was written and looked at. -/
def FigureArguments.shown (f : FigureArguments) (t : Terminal) (store : Store) : Terminal :=
  if f.noWait then { t with store := store }
  else { t with
    store := store
    input := (Terminal.splitLine t.input).2
    errors := t.errors ++ Host.prompt f.output }

section Viewers

variable {t : Terminal} {f : FigureArguments} {figure : Plot.Figure}

theorem run_fileViewer_of_write {path : Path} {store : Store}
    (h : t.store.write path (.figure figure) = .ok store) :
    (Terminal.host.fileViewer path figure).run.run t = (.ok (), { t with store := store }) := by
  have hwrite : (Terminal.host.writeFigure path figure).run.run t =
      (.ok (), { t with store := store }) := by
    show t.writeFigure path figure = _
    unfold Terminal.writeFigure
    rw [h]
  exact ExceptT.run_adapt_of hwrite _

theorem run_fileViewer_of_error {path : Path} {e : FileError}
    (h : t.store.write path (.figure figure) = .error e) :
    (Terminal.host.fileViewer path figure).run.run t = (.error (.file path e), t) := by
  have hwrite : (Terminal.host.writeFigure path figure).run.run t = (.error e, t) := by
    show t.writeFigure path figure = _
    unfold Terminal.writeFigure
    rw [h]
  exact ExceptT.run_adapt_of hwrite _

theorem run_viewer_of_write {store : Store} (hanswers : f.noWait = true ∨ t.Answers)
    (h : t.store.write f.output (.figure figure) = .ok store) :
    (f.viewer Terminal.host figure).run.run t = (.ok (), f.shown t store) := by
  unfold FigureArguments.viewer FigureArguments.shown
  split_ifs with hwait
  · exact run_fileViewer_of_write h
  · obtain ⟨line, hline⟩ := hanswers.resolve_left hwait
    have hread : Terminal.host.readLine.run.run
        { t with store := store, errors := t.errors ++ Host.prompt f.output } =
        (.ok line, { t with
          store := store
          input := (Terminal.splitLine t.input).2
          errors := t.errors ++ Host.prompt f.output }) := by
      show Terminal.takeLine _ = _
      unfold Terminal.takeLine
      rw [← hline]
    refine (ExceptT.run_bind_of_ok (run_fileViewer_of_write h)).trans ?_
    exact ExceptT.run_bind_of_ok (ExceptT.run_adapt_of hread _)

theorem run_viewer_of_error {e : FileError}
    (h : t.store.write f.output (.figure figure) = .error e) :
    (f.viewer Terminal.host figure).run.run t = (.error (.file f.output e), t) := by
  unfold FigureArguments.viewer
  split_ifs with hwait
  · exact run_fileViewer_of_error h
  · exact ExceptT.run_bind_of_error (run_fileViewer_of_error h)

end Viewers

/-! ## The ends of a run -/

section Ends

variable (solve : Polynomial.Solver Float)

/-- The figure of the series is drawn and written, which leads from the files
before to the files after. -/
def Written (before : Store) (a : AnalyzeArguments) (settings : AnalysisSettings) (s : Series)
    (after : Store) : Prop :=
  ∃ figure, Analysis.drawn solve s settings = .ok figure ∧
    before.write a.figure.output (.figure figure) = .ok after

/-- The figure is written, or there is no fit to show. -/
def Rendered (before : Store) (a : AnalyzeArguments) (settings : AnalysisSettings)
    (s : Series) : Prop :=
  (SeriesFits.ofSeries solve s settings).AnySucceeded →
    ∃ after, Written solve before a settings s after

/-- What is written on the way to a report: no figure if every fit failed, and
else the figure of the series. -/
inductive RendersTo (t : Terminal) (a : AnalyzeArguments) (settings : AnalysisSettings)
    (s : Series) : Terminal → Prop where
  | nothing (failed : ¬ (SeriesFits.ofSeries solve s settings).AnySucceeded) :
      RendersTo t a settings s t
  | figure {figure : Plot.Figure} {store : Store}
      (succeeded : (SeriesFits.ofSeries solve s settings).AnySucceeded)
      (draw : Analysis.drawn solve s settings = .ok figure)
      (write : t.store.write a.figure.output (.figure figure) = .ok store) :
      RendersTo t a settings s (a.figure.shown t store)

/-- The run gets as far as the drawing of a figure, and the drawing halts. -/
structure HaltsDrawing (files : Path → Except FileError String) (common : Common)
    (a : AnalyzeArguments) (settings : AnalysisSettings) (s : Series) (cause : Plot.Halt) :
    Prop where
  prepared : Prepared files common a settings s
  succeeded : (SeriesFits.ofSeries solve s settings).AnySucceeded
  draw : Analysis.drawn solve s settings = .error (.halted cause)

/-- The terminal after an incomplete report. -/
def Format.partly (format : Format) (t : Terminal) (text : String) : Terminal :=
  match format with
  | .text => { t with output := t.output ++ text }
  | .json => { t with errors := t.errors ++ text }

/-- The ends of an analysis on a terminal. -/
inductive AnalyzeEnds (common : Common) (a : AnalyzeArguments) (t : Terminal) :
    Except Failure Unit → Terminal → Prop where
  | stopped (failure : Failure) (told : failure.Told)
      (unrendered : ∀ settings s, Prepared t.store.readText common a settings s →
        ¬ Rendered solve t.store a settings s) :
      AnalyzeEnds common a t (.error failure) t
  | halted {settings : AnalysisSettings} {s : Series} {cause : Plot.Halt} (context : String)
      (halts : HaltsDrawing solve t.store.readText common a settings s cause) :
      AnalyzeEnds common a t (.error ⟨context, .halted cause⟩) t
  | incomplete {settings : AnalysisSettings} {s : Series} {t₁ : Terminal} (failure : Failure)
      (told : failure.Told) (prepared : Prepared t.store.readText common a settings s)
      (renders : RendersTo solve t a settings s t₁)
      (failed : ¬ (SeriesFits.ofSeries solve s settings).AllSucceeded) :
      AnalyzeEnds common a t (.error failure)
        (a.format.partly t₁ (Analysis.ofSeries solve s settings).partialText)
  | reported {settings : AnalysisSettings} {s : Series} {t₁ : Terminal} {report : Report}
      (prepared : Prepared t.store.readText common a settings s)
      (renders : RendersTo solve t a settings s t₁)
      (told : (Analysis.ofSeries solve s settings).report = .ok report) :
      AnalyzeEnds common a t (.ok ())
        { t₁ with output := t₁.output ++ a.format.write report }

end Ends

/-! ## Analyses on a terminal -/

variable {solve : Polynomial.Solver Float} {t t₁ : Terminal} {common : Common}
  {a : AnalyzeArguments} {settings : AnalysisSettings}

/-- What has become of an analysis on a terminal when it answers. -/
inductive AnalysisEnds (solve : Polynomial.Solver Float) (a : AnalyzeArguments)
    (settings : AnalysisSettings) (t : Terminal) : Except Error Analysis → Terminal → Prop where
  | stopped (e : Error) (told : e.halt? = none)
      (unrendered : settings.Valid → ∀ s, Series.Loads t.store.readText a.input s →
        ¬ Rendered solve t.store a settings s) :
      AnalysisEnds solve a settings t (.error e) t
  | halted {s : Series} {cause : Plot.Halt} (valid : settings.Valid)
      (loads : Series.Loads t.store.readText a.input s)
      (succeeded : (SeriesFits.ofSeries solve s settings).AnySucceeded)
      (draw : Analysis.drawn solve s settings = .error (.halted cause)) :
      AnalysisEnds solve a settings t (.error (.halted cause)) t
  | answered {s : Series} {t₁ : Terminal} (valid : settings.Valid)
      (loads : Series.Loads t.store.readText a.input s)
      (renders : RendersTo solve t a settings s t₁) :
      AnalysisEnds solve a settings t (.ok (Analysis.ofSeries solve s settings)) t₁

/-- An analysis of files on a terminal either fails and leaves the terminal as
it is, or it has loaded the file and written what there is to write. -/
theorem analysisEnds_of_ends (hanswers : a.figure.noWait = true ∨ t.Answers)
    {r : Except Error Analysis}
    (h : Analysis.Ends solve Terminal.host.readText (a.figure.viewer Terminal.host) a.input
      settings t r t₁) : AnalysisEnds solve a settings t r t₁ := by
  have hfinds := finds_readText t
  cases h with
  | refused _ hinvalid => exact .stopped _ rfl fun hvalid => absurd hvalid hinvalid
  | unloaded _ hload =>
      obtain ⟨hnone, rfl⟩ := Series.not_loads_of_load hfinds hload
      refine .stopped _ ?_ fun _ s hs => absurd ⟨s, hs⟩ hnone
      cases Series.unloadable_of_load hload <;> rfl
  | unfitted hvalid hload hfailed =>
      obtain ⟨hs, rfl⟩ := Series.loads_of_load hfinds hload
      exact .answered hvalid hs (.nothing hfailed)
  | undrawn hvalid hload hany hdraw =>
      have haligned := Series.aligned_of_load hload
      obtain ⟨hs, rfl⟩ := Series.loads_of_load hfinds hload
      obtain ⟨cause, rfl, -⟩ :=
        Plot.halts_of_drawWith (Analysis.panelsFault?_panels solve haligned settings) hdraw
      exact .halted hvalid hs hany hdraw
  | @shown s st₁ _ figure _ hvalid hload hany hdraw hview =>
      obtain ⟨hs, rfl⟩ := Series.loads_of_load hfinds hload
      cases hwrite : st₁.store.write a.figure.output (.figure figure) with
      | error e =>
          cases (run_viewer_of_error hwrite).symm.trans hview
          refine .stopped _ rfl ?_
          intro _ s' hs' hrendered
          obtain rfl := hs.unique hs'
          obtain ⟨store, figure', hfigure, hwritten⟩ := hrendered hany
          obtain rfl := Except.ok.inj (hdraw.symm.trans hfigure)
          cases hwrite.symm.trans hwritten
      | ok store =>
          cases (run_viewer_of_write hanswers hwrite).symm.trans hview
          exact .answered hvalid hs (.figure hany hdraw hwrite)

theorem run_lift_printPartial (format : Format) (text : String) (t : Terminal) :
    (liftM (printPartial Terminal.host format text) :
      ExceptT Failure (StateM Terminal) Unit).run.run t = (.ok (), format.partly t text) := by
  cases format with
  | text => rfl
  | json => rfl

section Told

variable {base : AnalysisSettings} {analysis : Analysis}

theorem run_runAnalyze_of_refused {failure : Failure} (h : a.settings base = .error failure) :
    (runAnalyze solve Terminal.host base a).run.run t = (.error failure, t) := by
  unfold runAnalyze
  rw [h]
  exact ExceptT.run_bind_of_error (ExceptT.run_ofExcept _ t)

theorem run_runAnalyze_of_error {e : Error} (hsettings : a.settings base = .ok settings)
    (h : (Analysis.run solve Terminal.host.readText (a.figure.viewer Terminal.host) a.input
      settings).run.run t = (.error e, t₁)) :
    (runAnalyze solve Terminal.host base a).run.run t =
      (.error ⟨"Failed to analyze " ++ a.input.text, e⟩, t₁) := by
  unfold runAnalyze
  rw [hsettings, ExceptT.run_bind_of_ok (ExceptT.run_ofExcept _ t)]
  exact ExceptT.run_bind_of_error (ExceptT.run_adapt_of h _)

theorem run_runAnalyze_of_report {report : Report} (hsettings : a.settings base = .ok settings)
    (h : (Analysis.run solve Terminal.host.readText (a.figure.viewer Terminal.host) a.input
      settings).run.run t = (.ok analysis, t₁)) (hreport : analysis.report = .ok report) :
    (runAnalyze solve Terminal.host base a).run.run t =
      (.ok (), { t₁ with output := t₁.output ++ a.format.write report }) := by
  unfold runAnalyze
  rw [hsettings, ExceptT.run_bind_of_ok (ExceptT.run_ofExcept _ t)]
  refine (ExceptT.run_bind_of_ok (ExceptT.run_adapt_of h _)).trans ?_
  rw [hreport]
  rfl

theorem run_runAnalyze_of_unreported {e : FitError Float}
    (hsettings : a.settings base = .ok settings)
    (h : (Analysis.run solve Terminal.host.readText (a.figure.viewer Terminal.host) a.input
      settings).run.run t = (.ok analysis, t₁)) (hreport : analysis.report = .error e) :
    (runAnalyze solve Terminal.host base a).run.run t =
      (.error ⟨"Failed to analyze " ++ a.input.text, .fit e⟩,
        a.format.partly t₁ analysis.partialText) := by
  unfold runAnalyze
  rw [hsettings, ExceptT.run_bind_of_ok (ExceptT.run_ofExcept _ t)]
  refine (ExceptT.run_bind_of_ok (ExceptT.run_adapt_of h _)).trans ?_
  rw [hreport]
  exact ExceptT.run_bind_of_ok (run_lift_printPartial _ _ t₁)

end Told

theorem exists_ends_of_base (solve : Polynomial.Solver Float)
    (hanswers : a.figure.noWait = true ∨ t.Answers) {base : Settings}
    (hbase : StartsFrom t.store.readText common.config base) :
    ∃ r t', (runAnalyze solve Terminal.host base.analyze a).run.run t = (r, t') ∧
      AnalyzeEnds solve common a t r t' := by
  have hmerged : ∀ settings s, Prepared t.store.readText common a settings s →
      a.settings base.analyze = .ok settings := by
    intro settings s hprepared
    obtain ⟨base', hbase', hsettings⟩ := hprepared.merged
    obtain rfl := hbase.unique hbase'
    exact AnalyzeArguments.settings_eq_ok_iff.mpr ⟨hprepared.flags, hsettings⟩
  cases hsettings : a.settings base.analyze with
  | error failure =>
      refine ⟨_, _, run_runAnalyze_of_refused hsettings,
        .stopped failure (AnalyzeArguments.told_of_settings hsettings) ?_⟩
      intro settings s hprepared
      cases hsettings.symm.trans (hmerged settings s hprepared)
  | ok settings =>
      obtain ⟨hflags, hmerge⟩ := AnalyzeArguments.settings_eq_ok_iff.mp hsettings
      have hprepared {s : Series} (hvalid : settings.Valid)
          (hs : Series.Loads t.store.readText a.input s) :
          Prepared t.store.readText common a settings s :=
        ⟨⟨base, hbase, hmerge⟩, hflags, hvalid, hs⟩
      obtain ⟨r, t₁, hrun, hends⟩ := Analysis.exists_ends solve Terminal.host.readText
        (a.figure.viewer Terminal.host) a.input settings t
      cases analysisEnds_of_ends hanswers hends with
      | stopped e htold hnone =>
          refine ⟨_, _, run_runAnalyze_of_error hsettings hrun, .stopped _ htold ?_⟩
          intro settings' s hprepared'
          obtain rfl := Except.ok.inj (hsettings.symm.trans (hmerged settings' s hprepared'))
          exact hnone hprepared'.valid s hprepared'.loads
      | halted hvalid hs hany hdraw =>
          exact ⟨_, _, run_runAnalyze_of_error hsettings hrun,
            .halted _ ⟨hprepared hvalid hs, hany, hdraw⟩⟩
      | @answered s _ hvalid hs hrenders =>
          cases hreport : (Analysis.ofSeries solve s settings).report with
          | error e =>
              refine ⟨_, _, run_runAnalyze_of_unreported hsettings hrun hreport,
                .incomplete _ rfl (hprepared hvalid hs) hrenders ?_⟩
              intro hall
              obtain ⟨report, htold⟩ :=
                Analysis.exists_report_iff (a := Analysis.ofSeries solve s settings).mpr hall
              cases hreport.symm.trans htold
          | ok report =>
              exact ⟨_, _, run_runAnalyze_of_report hsettings hrun hreport,
                .reported (hprepared hvalid hs) hrenders hreport⟩

/-! ## Command lines -/

/-- The terminal on which a run gets to work. A log is started if it is asked for. -/
def Common.started (common : Common) (t : Terminal) : Terminal :=
  { t with logging := t.logging || common.debug }

theorem run_runArguments_analyze (solve : Polynomial.Solver Float) (common : Common)
    (a : AnalyzeArguments) (t : Terminal) :
    (runArguments solve Terminal.host ⟨common, .analyze a⟩).run.run t =
      (do
        let settings ← loadSettings Terminal.host common.config
        runAnalyze solve Terminal.host settings.analyze a).run.run (common.started t) := by
  unfold runArguments Common.started
  cases common.debug with
  | false =>
      rw [Bool.or_false]
      rfl
  | true =>
      rw [Bool.or_true]
      rfl

theorem exists_analyzeEnds (solve : Polynomial.Solver Float) (common : Common)
    (hanswers : a.figure.noWait = true ∨ t.Answers) :
    ∃ r t', (runArguments solve Terminal.host ⟨common, .analyze a⟩).run.run t = (r, t') ∧
      AnalyzeEnds solve common a (common.started t) r t' := by
  rw [run_runArguments_analyze]
  obtain ⟨r, hrun, hr, htold⟩ := run_loadSettings (common.started t) common.config
  cases r with
  | error failure =>
      refine ⟨_, _, ExceptT.run_bind_of_error hrun, .stopped failure (htold failure rfl) ?_⟩
      intro settings s hprepared
      obtain ⟨base, hbase, -⟩ := hprepared.merged
      cases (hr base).mpr hbase
  | ok base =>
      rw [ExceptT.run_bind_of_ok hrun]
      exact exists_ends_of_base (t := common.started t) solve hanswers ((hr base).mp rfl)

/-- How a run answers, and its terminal: with an exit status, and a message if
it failed, or with what its drawing halted at. -/
def exitOf (r : Except Failure Unit) (t : Terminal) : Except Plot.Halt UInt32 × Terminal :=
  match r with
  | .ok () => (.ok 0, t)
  | .error failure =>
      match failure.cause.halt? with
      | some cause => (.error cause, t)
      | none => (.ok 1, { t with errors := t.errors ++ failure.message })

theorem run_finish (r : Except Failure Unit) (t : Terminal) :
    (finish Terminal.host r).run t = exitOf r t := by
  unfold finish exitOf
  cases r with
  | ok _ => rfl
  | error failure =>
      dsimp only
      cases failure.cause.halt? with
      | some cause => rfl
      | none => rfl

theorem exitOf_of_told {failure : Failure} (h : failure.Told) (t : Terminal) :
    exitOf (.error failure) t = (.ok 1, { t with errors := t.errors ++ failure.message }) := by
  unfold exitOf
  dsimp only
  rw [show failure.cause.halt? = none from h]

theorem run_of_read {args : List String} {arguments : Arguments} {r : Except Failure Unit}
    {t' : Terminal} (hargs : Arguments.read args = .ok arguments)
    (h : (runArguments solve Terminal.host arguments).run.run t = (r, t')) :
    (run solve Terminal.host args).run t = exitOf r t' := by
  unfold run
  rw [hargs]
  dsimp only
  rw [StateT.run_bind, h]
  exact run_finish r t'

end CommandLine

end GrowthCurve
