import Mathlib
import GrowthCurve.CommandLine.Run
import GrowthCurve.Proofs.Sample.Loading
import GrowthCurve.Proofs.Settings.Limits

/-!
# What a run prepares

Before anything is fitted, a command line leads to settings and to a series:
the settings file is read, options replace what it says, the result is checked
and the result file is loaded.
-/

namespace GrowthCurve.CommandLine

/-- The failure is told: it is not that the drawing halted. -/
def Failure.Told (failure : Failure) : Prop :=
  failure.cause.halt? = none

/-! ## Options -/

namespace AnalyzeArguments

/-- No option gives a degree below zero. -/
structure FlagsValid (a : AnalyzeArguments) : Prop where
  degree : ∀ d, a.degree = some d → 0 ≤ d
  derivativeDegree : ∀ d, a.derivativeDegree = some d → 0 ≤ d

/-- The settings after valid options. -/
def merged (a : AnalyzeArguments) (base : AnalysisSettings) : AnalysisSettings :=
  let s := withModel a.model base
  { s with
    timeDegree := (a.degree.map fun d => UInt64.ofNat d.toNat).getD s.timeDegree
    derivativeDegree :=
      (a.derivativeDegree.map fun d => some (UInt64.ofNat d.toNat)).getD s.derivativeDegree
    displayCeiling := a.ceilingOr s.displayCeiling }

theorem degreeOr_eq_ok_iff {α : Type} {option : String} {given : Option Int} {wrap : UInt64 → α}
    {base value : α} : degreeOr option given wrap base = .ok value ↔
      (∀ d, given = some d → 0 ≤ d) ∧
        value = (given.map fun d => wrap (UInt64.ofNat d.toNat)).getD base := by
  unfold degreeOr readDegree
  cases given with
  | none => simp [eq_comm]
  | some d =>
      by_cases hd : d < 0
      · simp [hd, Except.map]
      · simp [hd, Except.map, not_lt.mp hd, eq_comm]

theorem settings_eq_ok_iff {a : AnalyzeArguments} {base s : AnalysisSettings} :
    a.settings base = .ok s ↔ a.FlagsValid ∧ s = a.merged base := by
  unfold settings
  constructor
  · intro h
    obtain ⟨time, htime, hrest⟩ := Except.bind_eq_ok_iff.mp h
    obtain ⟨derivative, hderivative, hs⟩ := Except.bind_eq_ok_iff.mp hrest
    obtain ⟨hdegree, rfl⟩ := degreeOr_eq_ok_iff.mp htime
    obtain ⟨hderivativeDegree, rfl⟩ := degreeOr_eq_ok_iff.mp hderivative
    exact ⟨⟨hdegree, hderivativeDegree⟩, (Except.ok.inj hs).symm⟩
  · rintro ⟨hflags, rfl⟩
    exact Except.bind_eq_ok_iff.mpr ⟨_, degreeOr_eq_ok_iff.mpr ⟨hflags.degree, rfl⟩,
      Except.bind_eq_ok_iff.mpr ⟨_, degreeOr_eq_ok_iff.mpr ⟨hflags.derivativeDegree, rfl⟩, rfl⟩⟩

theorem told_of_degreeOr {α : Type} {option : String} {given : Option Int} {wrap : UInt64 → α}
    {base : α} {failure : Failure} (h : degreeOr option given wrap base = .error failure) :
    failure.Told := by
  unfold degreeOr readDegree at h
  cases given with
  | none => cases h
  | some d =>
      dsimp only at h
      rw [Except.map_eq_error_iff] at h
      split_ifs at h
      obtain rfl := Except.error.inj h
      rfl

theorem told_of_settings {a : AnalyzeArguments} {base : AnalysisSettings} {failure : Failure}
    (h : a.settings base = .error failure) : failure.Told := by
  unfold settings at h
  rcases Except.bind_eq_error_iff.mp h with htime | ⟨time, -, hrest⟩
  · exact told_of_degreeOr htime
  · rcases Except.bind_eq_error_iff.mp hrest with hderivative | ⟨derivative, -, hdone⟩
    · exact told_of_degreeOr hderivative
    · cases hdone

end AnalyzeArguments

/-! ## Settings files -/

/-- The settings that a run starts from: those of the settings file, or else
the ones by default. -/
inductive StartsFrom (files : Path → Except FileError String) : Option Path → Settings → Prop where
  | default : StartsFrom files none {}
  | file {path : Path} {text : String} {settings : Settings} (there : files path = .ok text)
      (reads : Settings.ofToml text = .ok settings) : StartsFrom files (some path) settings

theorem StartsFrom.unique {files : Path → Except FileError String} {config : Option Path}
    {settings settings' : Settings} (h : StartsFrom files config settings)
    (h' : StartsFrom files config settings') : settings = settings' := by
  cases h with
  | default =>
      cases h'
      rfl
  | file hthere hreads =>
      cases h' with
      | file hthere' hreads' =>
          obtain rfl := Except.ok.inj (hthere.symm.trans hthere')
          exact Except.ok.inj (hreads.symm.trans hreads')

theorem finds_readText (t : Terminal) :
    FileReader.Finds Terminal.host.readText t t.store.readText := fun _ => rfl

theorem run_load_settings (t : Terminal) (path : Path) :
    ∃ r, (Settings.load Terminal.host.readText path).run.run t = (r, t) ∧
      (∀ settings, r = .ok settings ↔ StartsFrom t.store.readText (some path) settings) ∧
      ∀ e, r = .error e → e.halt? = none := by
  unfold Settings.load
  cases hfile : t.store.readText path with
  | error e =>
      have hread : (Terminal.host.readText path).run.run t = (.error e, t) :=
        (finds_readText t path).trans (by rw [hfile])
      refine ⟨_, ExceptT.run_bind_of_error (ExceptT.run_adapt_of hread _), ?_, ?_⟩
      · intro settings
        refine ⟨nofun, ?_⟩
        rintro (_ | ⟨hthere, -⟩)
        cases hfile.symm.trans hthere
      · intro cause hcause
        obtain rfl := Except.error.inj hcause
        rfl
  | ok text =>
      have hread : (Terminal.host.readText path).run.run t = (.ok text, t) :=
        (finds_readText t path).trans (by rw [hfile])
      refine ⟨_, (ExceptT.run_bind_of_ok (ExceptT.run_adapt_of hread _)).trans
        (ExceptT.run_ofExcept _ _), ?_, ?_⟩
      · intro settings
        rw [Except.mapError_eq_ok_iff]
        refine ⟨.file hfile, ?_⟩
        rintro (_ | ⟨hthere, hreads⟩)
        obtain rfl := Except.ok.inj (hfile.symm.trans hthere)
        exact hreads
      · intro cause hcause
        obtain ⟨fault, -, rfl⟩ := Except.mapError_eq_error_iff.mp hcause
        rfl

theorem run_loadSettings (t : Terminal) (config : Option Path) :
    ∃ r, (loadSettings Terminal.host config).run.run t = (r, t) ∧
      (∀ settings, r = .ok settings ↔ StartsFrom t.store.readText config settings) ∧
      ∀ failure : Failure, r = .error failure → failure.Told := by
  unfold loadSettings
  cases config with
  | none =>
      refine ⟨.ok {}, rfl, ?_, nofun⟩
      intro settings
      constructor
      · intro h
        obtain rfl := Except.ok.inj h
        exact .default
      · rintro ⟨⟩
        rfl
  | some path =>
      obtain ⟨r, hrun, hr, htold⟩ := run_load_settings t path
      refine ⟨_, ExceptT.run_adapt_of hrun _, ?_, ?_⟩
      · intro settings
        rw [Except.mapError_eq_ok_iff]
        exact hr settings
      · intro failure hfailure
        obtain ⟨cause, hcause, rfl⟩ := Except.mapError_eq_error_iff.mp hfailure
        exact htold cause hcause

/-! ## Settings and series -/

/-- The settings file loads, the options are valid, the settings that result
are within their limits and the result file loads. -/
structure Prepared (files : Path → Except FileError String) (common : Common)
    (a : AnalyzeArguments) (settings : AnalysisSettings) (s : Series) : Prop where
  merged : ∃ base, StartsFrom files common.config base ∧ settings = a.merged base.analyze
  flags : a.FlagsValid
  valid : settings.Valid
  loads : Series.Loads files a.input s

theorem Prepared.unique {files : Path → Except FileError String} {common : Common}
    {a : AnalyzeArguments} {settings settings' : AnalysisSettings} {s s' : Series}
    (h : Prepared files common a settings s) (h' : Prepared files common a settings' s') :
    settings = settings' ∧ s = s' := by
  obtain ⟨base, hbase, hsettings⟩ := h.merged
  obtain ⟨base', hbase', hsettings'⟩ := h'.merged
  obtain rfl := hbase.unique hbase'
  exact ⟨hsettings.trans hsettings'.symm, h.loads.unique h'.loads⟩

end GrowthCurve.CommandLine
