import Mathlib
import GrowthCurve.Analysis
import GrowthCurve.Comparison
import GrowthCurve.Proofs.Sample.Loading
import GrowthCurve.Proofs.Settings.Limits

/-!
# How runs end

An analysis or a comparison goes through its settings, its files, its figure
and its viewer in this order, and ends at the first of them that fails. All
that is said about runs follows from the list of their ends.
-/

namespace GrowthCurve

variable {σ : Type} {read : FileReader (StateM σ)} {viewer : Viewer (StateM σ)} {st : σ}

section Render

variable {panels : List (Plot.Panel Float)} {size : Plot.FigureSize}

theorem Viewer.run_render_of_ok {figure : Plot.Figure} (h : Plot.draw panels size = .ok figure) :
    (viewer.render panels size).run.run st = (viewer figure).run.run st := by
  unfold Viewer.render
  rw [h]
  exact ExceptT.run_bind_of_ok (ExceptT.run_ofExcept _ st)

theorem Viewer.run_render_of_error {e : Plot.DrawError} (h : Plot.draw panels size = .error e) :
    (viewer.render panels size).run.run st = (.error (.ofDrawError e), st) := by
  unfold Viewer.render
  rw [h]
  exact ExceptT.run_bind_of_error (ExceptT.run_ofExcept _ st)

end Render

theorem Viewer.run_gallery (figure : Plot.Figure) (figures : List Plot.Figure) :
    (Viewer.gallery figure).run.run figures = (.ok (), figures ++ [figure]) :=
  rfl

/-- What an action makes of its viewer, whichever viewer it is given. Without a
figure the viewer is not called. With a figure it is called once, and the
answer is given unless the viewer fails. -/
def Viewer.Hands {α : Type} (action : Viewer (StateM σ) → ExceptT Error (StateM σ) α) (st : σ) :
    Option Plot.Figure → Except Error α → Prop
  | none, r => ∀ viewer, (action viewer).run.run st = (r, st)
  | some figure, r => ∀ viewer v st', (viewer figure).run.run st = (v, st') →
      (action viewer).run.run st = (v >>= fun _ => r, st')

theorem Viewer.hands_error {α : Type} (e : Error) (st : σ) :
    Viewer.Hands (fun _ => (throw e : ExceptT Error (StateM σ) α)) st none (.error e) :=
  fun _ => rfl

/-- An answer that follows on rendering is given once the viewer took the figure. -/
theorem Viewer.hands_render {α : Type} {panels : List (Plot.Panel Float)} {size : Plot.FigureSize}
    {figure : Plot.Figure} (hdraw : Plot.draw panels size = .ok figure) (a : α) (st : σ) :
    Viewer.Hands (fun viewer => do
      viewer.render panels size
      return a) st (some figure) (.ok a) := by
  intro viewer v st' hview
  have hrender := (run_render_of_ok hdraw).trans hview
  cases v with
  | error e => exact ExceptT.run_bind_of_error hrender
  | ok _ => exact ExceptT.run_bind_of_ok hrender

/-- What comes before the viewer and leaves the state as it is does not change what it gets. -/
theorem Viewer.Hands.after {α β : Type} {x : ExceptT Error (StateM σ) β} {b : β}
    {action : β → Viewer (StateM σ) → ExceptT Error (StateM σ) α} {figure : Option Plot.Figure}
    {r : Except Error α} (hx : x.run.run st = (.ok b, st))
    (h : Viewer.Hands (action b) st figure r) :
    Viewer.Hands (fun viewer => x >>= fun b => action b viewer) st figure r := by
  cases figure with
  | none =>
      intro viewer
      exact (ExceptT.run_bind_of_ok hx).trans (h viewer)
  | some figure =>
      intro viewer v st' hview
      exact (ExceptT.run_bind_of_ok hx).trans (h viewer v st' hview)

theorem Viewer.hands_of_error {α β : Type} {x : ExceptT Error (StateM σ) β} {e : Error}
    (hx : x.run.run st = (.error e, st))
    (action : β → Viewer (StateM σ) → ExceptT Error (StateM σ) α) :
    Viewer.Hands (fun viewer => x >>= fun b => action b viewer) st none (.error e) :=
  fun _ => ExceptT.run_bind_of_error hx

/-- Further steps on the answer come after the viewer. -/
theorem Viewer.Hands.bind {α β : Type}
    {action : Viewer (StateM σ) → ExceptT Error (StateM σ) α} {figure : Option Plot.Figure}
    {r : Except Error α} (h : Viewer.Hands action st figure r) (f : α → Except Error β) :
    Viewer.Hands (fun viewer => action viewer >>= fun a => MonadExcept.ofExcept (f a)) st figure
      (r >>= f) := by
  have hstep : ∀ {viewer : Viewer (StateM σ)} {w : Except Error α} {st' : σ},
      (action viewer).run.run st = (w, st') →
        (action viewer >>= fun a => MonadExcept.ofExcept (f a)).run.run st = (w >>= f, st') := by
    intro viewer w st' hw
    cases w with
    | error e => exact ExceptT.run_bind_of_error hw
    | ok a => exact (ExceptT.run_bind_of_ok hw).trans (ExceptT.run_ofExcept (f a) st')
  cases figure with
  | none => exact fun viewer => hstep (h viewer)
  | some figure =>
      intro viewer v st' hview
      rw [hstep (h viewer v st' hview)]
      cases v <;> rfl

/-! ## Analyses -/

namespace SeriesFits

variable {f : SeriesFits} {fit : Fit Float}

/-- One of the two fits succeeded, or both. -/
def AnySucceeded (f : SeriesFits) : Prop :=
  (∃ fit, f.time = .ok fit) ∨ ∃ fit, f.derivative = some (.ok fit)

/-- Every fit that was tried succeeded. -/
structure AllSucceeded (f : SeriesFits) : Prop where
  time : ∃ fit, f.time = .ok fit
  derivative : ∀ r, f.derivative = some r → ∃ fit, r = .ok fit

/-- The error of the times, or that of the derivatives if the times have a fit. -/
inductive FirstError (f : SeriesFits) : FitError Float → Prop where
  | time {e : FitError Float} (htime : f.time = .error e) : FirstError f e
  | derivative {time : Fit Float} {e : FitError Float} (htime : f.time = .ok time)
      (hderivative : f.derivative = some (.error e)) : FirstError f e

theorem AllSucceeded.anySucceeded (h : f.AllSucceeded) : f.AnySucceeded :=
  Or.inl h.time

theorem time?_eq_some_iff : f.time? = some fit ↔ f.time = .ok fit := by
  unfold time?
  cases f.time with
  | error e => simp [Except.toOption]
  | ok fit => simp [Except.toOption]

theorem derivative?_eq_some_iff : f.derivative? = some fit ↔ f.derivative = some (.ok fit) := by
  unfold derivative?
  rcases f.derivative with _ | _ | fit <;> simp [Except.toOption]

theorem anySucceeded_iff : f.anySucceeded ↔ f.AnySucceeded := by
  unfold anySucceeded AnySucceeded
  simp only [Bool.or_eq_true, Option.isSome_iff_exists, time?_eq_some_iff,
    derivative?_eq_some_iff]

end SeriesFits

namespace Analysis

section Reports

variable {a : Analysis}

theorem report_eq_ok_iff {r : Report} :
    a.report = .ok r ↔ ∃ time derivative, a.fits.time = .ok time ∧
      a.fits.derivative = derivative.map .ok ∧
      r = .ofFits a.source a.samples time derivative := by
  unfold report
  constructor
  · intro h
    split at h
    case h_1 => cases h
    case h_2 => cases h
    case h_3 time derivative htime hderivative =>
      exact ⟨time, some derivative, htime, hderivative, (Except.ok.inj h).symm⟩
    case h_4 time htime hderivative =>
      exact ⟨time, none, htime, hderivative, (Except.ok.inj h).symm⟩
  · rintro ⟨time, derivative, htime, hderivative, rfl⟩
    rw [htime, hderivative]
    cases derivative <;> rfl

/-- There is a full report exactly if no fit failed. -/
theorem exists_report_iff : (∃ report, a.report = .ok report) ↔ a.fits.AllSucceeded := by
  constructor
  · rintro ⟨report, hreport⟩
    obtain ⟨time, derivative, htime, hderivative, -⟩ := report_eq_ok_iff.mp hreport
    refine ⟨⟨time, htime⟩, ?_⟩
    intro r hr
    obtain ⟨fit, -, hfit⟩ := Option.map_eq_some_iff.mp (hderivative.symm.trans hr)
    exact ⟨fit, hfit.symm⟩
  · rintro ⟨⟨time, htime⟩, hderivative⟩
    cases hr : a.fits.derivative with
    | none => exact ⟨_, report_eq_ok_iff.mpr ⟨time, none, htime, hr, rfl⟩⟩
    | some r =>
        obtain ⟨derivative, rfl⟩ := hderivative r hr
        exact ⟨_, report_eq_ok_iff.mpr ⟨time, some derivative, htime, hr, rfl⟩⟩

theorem report_eq_error_iff {e : FitError Float} :
    a.report = .error e ↔ a.fits.FirstError e := by
  unfold report
  constructor
  · intro h
    split at h
    case h_1 htime =>
      obtain rfl := Except.error.inj h
      exact .time htime
    case h_2 htime hderivative =>
      obtain rfl := Except.error.inj h
      exact .derivative htime hderivative
    case h_3 => cases h
    case h_4 => cases h
  · intro h
    cases h with
    | time htime => rw [htime]
    | derivative htime hderivative => rw [htime, hderivative]

end Reports

variable {solve : Polynomial.Solver Float} {path : Path} {settings : AnalysisSettings}

theorem run_of_fault {fault : SettingsFault} (h : settings.fault? = some fault) :
    run solve read viewer path settings = throw (.config fault.message) := by
  unfold run
  simp [h]

theorem run_of_valid (h : settings.fault? = none) :
    run solve read viewer path settings = (do
      let s ← Series.load read path
      if (SeriesFits.ofSeries solve s settings).anySucceeded then do
        viewer.render (panels s (.ofSeries solve s settings) settings) settings.figure
        return ofSeries solve s settings
      else return ofSeries solve s settings) := by
  unfold run
  rw [h]
  rfl

abbrev drawn (solve : Polynomial.Solver Float) (s : Series) (settings : AnalysisSettings) :
    Except Plot.DrawError Plot.Figure :=
  Plot.draw (panels s (.ofSeries solve s settings) settings) settings.figure

/-- The analysis gets past its viewer, which leaves its answer and a state. Without a
fit that succeeded there is no figure, and the viewer is not called. -/
inductive Attended (solve : Polynomial.Solver Float) (read : FileReader (StateM σ))
    (viewer : Viewer (StateM σ)) (path : Path) (settings : AnalysisSettings) (st : σ) :
    Series → Except Error Unit → σ → Prop where
  | unfitted {s : Series} {st₁ : σ} (valid : settings.Valid)
      (load : (Series.load read path).run.run st = (.ok s, st₁))
      (failed : ¬ (SeriesFits.ofSeries solve s settings).AnySucceeded) :
      Attended solve read viewer path settings st s (.ok ()) st₁
  | shown {s : Series} {st₁ st₂ : σ} {figure : Plot.Figure} {v : Except Error Unit}
      (valid : settings.Valid)
      (load : (Series.load read path).run.run st = (.ok s, st₁))
      (succeeded : (SeriesFits.ofSeries solve s settings).AnySucceeded)
      (draw : drawn solve s settings = .ok figure)
      (view : (viewer figure).run.run st₁ = (v, st₂)) :
      Attended solve read viewer path settings st s v st₂

theorem run_of_attended {s : Series} {v : Except Error Unit} {st' : σ}
    (h : Attended solve read viewer path settings st s v st') :
    (run solve read viewer path settings).run.run st =
      (v.map fun _ => ofSeries solve s settings, st') := by
  cases h with
  | unfitted hvalid hload hfailed =>
      rw [run_of_valid (AnalysisSettings.fault?_eq_none_iff.mpr hvalid),
        ExceptT.run_bind_of_ok hload, if_neg (mt SeriesFits.anySucceeded_iff.mp hfailed)]
      rfl
  | shown hvalid hload hany hdraw hview =>
      rw [run_of_valid (AnalysisSettings.fault?_eq_none_iff.mpr hvalid),
        ExceptT.run_bind_of_ok hload, if_pos (SeriesFits.anySucceeded_iff.mpr hany)]
      have hrender := (Viewer.run_render_of_ok hdraw).trans hview
      cases v with
      | error e => exact ExceptT.run_bind_of_error hrender
      | ok _ => exact ExceptT.run_bind_of_ok hrender

/-- The ends of an analysis: its answer and the state that it leaves. -/
inductive Ends (solve : Polynomial.Solver Float) (read : FileReader (StateM σ))
    (viewer : Viewer (StateM σ)) (path : Path) (settings : AnalysisSettings) (st : σ) :
    Except Error Analysis → σ → Prop where
  | refused (fault : SettingsFault) (invalid : ¬ settings.Valid) :
      Ends solve read viewer path settings st (.error (.config fault.message)) st
  | unloaded {e : Error} {st₁ : σ} (valid : settings.Valid)
      (load : (Series.load read path).run.run st = (.error e, st₁)) :
      Ends solve read viewer path settings st (.error e) st₁
  | unfitted {s : Series} {st₁ : σ} (valid : settings.Valid)
      (load : (Series.load read path).run.run st = (.ok s, st₁))
      (failed : ¬ (SeriesFits.ofSeries solve s settings).AnySucceeded) :
      Ends solve read viewer path settings st (.ok (ofSeries solve s settings)) st₁
  | undrawn {s : Series} {st₁ : σ} {e : Plot.DrawError} (valid : settings.Valid)
      (load : (Series.load read path).run.run st = (.ok s, st₁))
      (succeeded : (SeriesFits.ofSeries solve s settings).AnySucceeded)
      (draw : drawn solve s settings = .error e) :
      Ends solve read viewer path settings st (.error (.ofDrawError e)) st₁
  | shown {s : Series} {st₁ st₂ : σ} {figure : Plot.Figure} {r : Except Error Unit}
      (valid : settings.Valid)
      (load : (Series.load read path).run.run st = (.ok s, st₁))
      (succeeded : (SeriesFits.ofSeries solve s settings).AnySucceeded)
      (draw : drawn solve s settings = .ok figure)
      (view : (viewer figure).run.run st₁ = (r, st₂)) :
      Ends solve read viewer path settings st (r.map fun _ => ofSeries solve s settings) st₂

/-- Every analysis comes to one of the ends. -/
theorem exists_ends (solve : Polynomial.Solver Float) (read : FileReader (StateM σ))
    (viewer : Viewer (StateM σ)) (path : Path) (settings : AnalysisSettings) (st : σ) :
    ∃ r st', (run solve read viewer path settings).run.run st = (r, st') ∧
      Ends solve read viewer path settings st r st' := by
  cases hfault : settings.fault? with
  | some fault =>
      rw [run_of_fault hfault]
      refine ⟨_, _, rfl, .refused fault ?_⟩
      rw [← AnalysisSettings.fault?_eq_none_iff, hfault]
      simp
  | none =>
      have hvalid := AnalysisSettings.fault?_eq_none_iff.mp hfault
      obtain ⟨⟨e | s, st₁⟩, hload⟩ : ∃ p, (Series.load read path).run.run st = p := ⟨_, rfl⟩
      · rw [run_of_valid hfault]
        exact ⟨_, _, ExceptT.run_bind_of_error hload, .unloaded hvalid hload⟩
      by_cases hany : (SeriesFits.ofSeries solve s settings).AnySucceeded
      case neg =>
        exact ⟨_, _, run_of_attended (.unfitted hvalid hload hany), .unfitted hvalid hload hany⟩
      cases hdraw : drawn solve s settings with
      | error e =>
          rw [run_of_valid hfault, ExceptT.run_bind_of_ok hload,
            if_pos (SeriesFits.anySucceeded_iff.mpr hany)]
          exact ⟨_, _, ExceptT.run_bind_of_error (Viewer.run_render_of_error hdraw),
            .undrawn hvalid hload hany hdraw⟩
      | ok figure =>
          obtain ⟨⟨r, st₂⟩, hview⟩ : ∃ p, (viewer figure).run.run st₁ = p := ⟨_, rfl⟩
          exact ⟨_, _, run_of_attended (.shown hvalid hload hany hdraw hview),
            .shown hvalid hload hany hdraw hview⟩

theorem run_runReport {r : Except Error Analysis} {st' : σ}
    (h : (run solve read viewer path settings).run.run st = (r, st')) :
    (runReport solve read viewer path settings).run.run st =
      (r >>= fun a => a.report.mapError .fit, st') := by
  unfold runReport
  cases r with
  | error e => exact ExceptT.run_bind_of_error h
  | ok a =>
      rw [ExceptT.run_bind_of_ok h]
      exact ExceptT.run_ofExcept _ _

end Analysis

/-! ## Comparisons -/

namespace Comparison

variable {paths : List Path} {settings : ComparisonSettings}

theorem run_of_fault {fault : Fault} (h : fault? settings paths.length = some fault) :
    run read viewer paths settings = throw (.config fault.message) := by
  unfold run
  simp [h]

theorem run_of_comparable (h : fault? settings paths.length = none) :
    run read viewer paths settings = (do
      let series ← Series.loadAll read paths
      viewer.render [panel series settings.labels settings.axes] settings.figure
      return series) := by
  unfold run
  simp [h]

abbrev drawn (series : List Series) (settings : ComparisonSettings) :
    Except Plot.DrawError Plot.Figure :=
  Plot.draw [panel series settings.labels settings.axes] settings.figure

/-- The ends of a comparison: its answer and the state that it leaves. -/
inductive Ends (read : FileReader (StateM σ)) (viewer : Viewer (StateM σ)) (paths : List Path)
    (settings : ComparisonSettings) (st : σ) : Except Error (List Series) → σ → Prop where
  | refused (fault : Fault) (incomparable : ¬ Comparable settings paths.length) :
      Ends read viewer paths settings st (.error (.config fault.message)) st
  | unloaded {e : Error} {st₁ : σ} (comparable : Comparable settings paths.length)
      (load : (Series.loadAll read paths).run.run st = (.error e, st₁)) :
      Ends read viewer paths settings st (.error e) st₁
  | undrawn {series : List Series} {st₁ : σ} {e : Plot.DrawError}
      (comparable : Comparable settings paths.length)
      (load : (Series.loadAll read paths).run.run st = (.ok series, st₁))
      (draw : drawn series settings = .error e) :
      Ends read viewer paths settings st (.error (.ofDrawError e)) st₁
  | shown {series : List Series} {st₁ st₂ : σ} {figure : Plot.Figure} {r : Except Error Unit}
      (comparable : Comparable settings paths.length)
      (load : (Series.loadAll read paths).run.run st = (.ok series, st₁))
      (draw : drawn series settings = .ok figure)
      (view : (viewer figure).run.run st₁ = (r, st₂)) :
      Ends read viewer paths settings st (r.map fun _ => series) st₂

theorem exists_ends (read : FileReader (StateM σ)) (viewer : Viewer (StateM σ))
    (paths : List Path) (settings : ComparisonSettings) (st : σ) :
    ∃ r st', (run read viewer paths settings).run.run st = (r, st') ∧
      Ends read viewer paths settings st r st' := by
  cases hfault : fault? settings paths.length with
  | some fault =>
      rw [run_of_fault hfault]
      refine ⟨_, _, rfl, .refused fault ?_⟩
      rw [← fault?_eq_none_iff, hfault]
      simp
  | none =>
      have hcomparable := fault?_eq_none_iff.mp hfault
      rw [run_of_comparable hfault]
      obtain ⟨⟨e | series, st₁⟩, hload⟩ : ∃ p, (Series.loadAll read paths).run.run st = p :=
        ⟨_, rfl⟩
      · exact ⟨_, _, ExceptT.run_bind_of_error hload, .unloaded hcomparable hload⟩
      rw [ExceptT.run_bind_of_ok hload]
      cases hdraw : drawn series settings with
      | error e =>
          exact ⟨_, _, ExceptT.run_bind_of_error (Viewer.run_render_of_error hdraw),
            .undrawn hcomparable hload hdraw⟩
      | ok figure =>
          obtain ⟨⟨r, st₂⟩, hview⟩ : ∃ p, (viewer figure).run.run st₁ = p := ⟨_, rfl⟩
          refine ⟨_, _, ?_, .shown hcomparable hload hdraw hview⟩
          have hrender := (Viewer.run_render_of_ok hdraw).trans hview
          cases r with
          | error e => exact ExceptT.run_bind_of_error hrender
          | ok _ => exact ExceptT.run_bind_of_ok hrender

end Comparison

end GrowthCurve
