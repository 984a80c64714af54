import Mathlib
import GrowthCurve.Proofs.CommandLine.Preparation

/-!
# Options over settings

Options replace the settings of a file, each its own ones and nothing else. Which
settings are replaced is decided by the options alone, and what the file says
there has no influence.
-/

namespace GrowthCurve.CommandLine.AnalyzeArguments

attribute [ext] AnalysisSettings

/-! ## What options decide -/

/-- No option decides on the degree of the time fit. -/
def LeavesDegree (a : AnalyzeArguments) : Prop :=
  a.degree = none ∧ a.model = none

/-- No option decides on the degree of the derivative fit. -/
def LeavesDerivativeDegree (a : AnalyzeArguments) : Prop :=
  a.derivativeDegree = none ∧ a.model = none

/-- No option decides on the ceiling. -/
def LeavesCeiling (a : AnalyzeArguments) : Prop :=
  a.ceiling = none ∧ a.noClip = false

/-- The settings agree as far as no option decides on them. -/
structure AgreeApart (a : AnalyzeArguments) (base base' : AnalysisSettings) : Prop where
  degree : a.LeavesDegree → base.timeDegree = base'.timeDegree
  derivativeDegree : a.LeavesDerivativeDegree → base.derivativeDegree = base'.derivativeDegree
  ceiling : a.LeavesCeiling → base.displayCeiling = base'.displayCeiling
  labels : base.labels = base'.labels
  figure : base.figure = base'.figure

/-- An option gives a degree below zero. Of two such degrees the one of the times is blamed. -/
inductive Refuses (a : AnalyzeArguments) : Failure → Prop where
  | degree {d : ℤ} (given : a.degree = some d) (negative : d < 0) :
      Refuses a ⟨"Invalid value for --degree", .fit (.invalidDegree d)⟩
  | derivativeDegree {d : ℤ} (first : ∀ d, a.degree = some d → 0 ≤ d)
      (given : a.derivativeDegree = some d) (negative : d < 0) :
      Refuses a ⟨"Invalid value for --derivative-degree", .fit (.invalidDegree d)⟩

/-- A degree as it is stored. Options hold numbers of 64 signed bits, which are stored
as they are. -/
structure Stores (d : ℤ) (word : UInt64) : Prop where
  word_eq : word = UInt64.ofNat d.toNat
  toNat_eq : 0 ≤ d → d < 2 ^ 63 → (word.toNat : ℤ) = d

/-- The degree of the time fit: the explicit one, else that of the model, else `base`. -/
inductive DecidesDegree (a : AnalyzeArguments) (base : UInt64) : UInt64 → Prop where
  | explicit {d : ℤ} {word : UInt64} (given : a.degree = some d) (stored : Stores d word) :
      DecidesDegree a base word
  | model {m : Model} {word : UInt64} (missing : a.degree = none) (given : a.model = some m)
      (stored : word.toNat = m.degree) : DecidesDegree a base word
  | left (left : a.LeavesDegree) : DecidesDegree a base base

/-- The degree of the derivative fit: the explicit one, else none at all for any
model, else `base`. -/
inductive DecidesDerivativeDegree (a : AnalyzeArguments) (base : Option UInt64) :
    Option UInt64 → Prop where
  | explicit {d : ℤ} {word : UInt64} (given : a.derivativeDegree = some d)
      (stored : Stores d word) : DecidesDerivativeDegree a base (some word)
  | model {m : Model} (missing : a.derivativeDegree = none) (given : a.model = some m) :
      DecidesDerivativeDegree a base none
  | left (left : a.LeavesDerivativeDegree) : DecidesDerivativeDegree a base base

/-- The ceiling: none without clipping, else the explicit one, else `base`. -/
inductive DecidesCeiling (a : AnalyzeArguments) (base : Option Float) : Option Float → Prop where
  | noClip (given : a.noClip = true) : DecidesCeiling a base none
  | explicit {c : Float} (clips : a.noClip = false) (given : a.ceiling = some c) :
      DecidesCeiling a base (some c)
  | left (left : a.LeavesCeiling) : DecidesCeiling a base base

/-- The settings `s` are those of `base` under the options. -/
structure Decides (a : AnalyzeArguments) (base s : AnalysisSettings) : Prop where
  degree : a.DecidesDegree base.timeDegree s.timeDegree
  derivativeDegree : a.DecidesDerivativeDegree base.derivativeDegree s.derivativeDegree
  ceiling : a.DecidesCeiling base.displayCeiling s.displayCeiling
  labels : s.labels = base.labels
  figure : s.figure = base.figure
  /-- A model leaves the derivative to the degree of the time fit, whichever that is in the end. -/
  effective : ∀ m, a.model = some m → a.derivativeDegree = none →
    s.effectiveDerivativeDegree.toNat = s.timeDegree.toNat - 1

variable {a : AnalyzeArguments} {base base' s : AnalysisSettings} {failure : Failure}

/-! ## Degrees -/

theorem stores_ofNat (d : ℤ) : Stores d (UInt64.ofNat d.toNat) := by
  refine ⟨rfl, ?_⟩
  intro hd hbound
  rw [UInt64.toNat_ofNat']
  omega

theorem toNat_effectiveDerivativeDegree (h : s.derivativeDegree = none) :
    s.effectiveDerivativeDegree.toNat = s.timeDegree.toNat - 1 := by
  unfold AnalysisSettings.effectiveDerivativeDegree
  rw [h, Option.getD_none]
  split_ifs with hzero
  · rw [hzero]
    rfl
  · have hpos : s.timeDegree.toNat ≠ 0 := fun h => hzero (UInt64.toNat_inj.mp h)
    have hone : (1 : UInt64) ≤ s.timeDegree :=
      UInt64.le_iff_toNat_le.mpr (Nat.one_le_iff_ne_zero.mpr hpos)
    exact UInt64.toNat_sub_of_le _ _ hone

theorem degreeOr_eq_error_iff {α : Type} {option : String} {given : Option ℤ} {wrap : UInt64 → α}
    {value : α} : degreeOr option given wrap value = .error failure ↔
      ∃ d, given = some d ∧ d < 0 ∧
        failure = ⟨"Invalid value for " ++ option, .fit (.invalidDegree d)⟩ := by
  unfold degreeOr readDegree
  cases given with
  | none => simp
  | some d =>
      by_cases hd : d < 0
      · simp [hd, Except.map, eq_comm]
      · simp [hd, Except.map]

/-! ## Outcomes -/

theorem settings_eq_error_iff : a.settings base = .error failure ↔ a.Refuses failure := by
  unfold settings
  rw [Except.bind_eq_error_iff, degreeOr_eq_error_iff]
  constructor
  · rintro (⟨d, hgiven, hnegative, rfl⟩ | ⟨time, htime, hrest⟩)
    · exact .degree hgiven hnegative
    · obtain ⟨hfirst, -⟩ := degreeOr_eq_ok_iff.mp htime
      rcases Except.bind_eq_error_iff.mp hrest with hderivative | ⟨_, -, hnone⟩
      · obtain ⟨d, hgiven, hnegative, rfl⟩ := degreeOr_eq_error_iff.mp hderivative
        exact .derivativeDegree hfirst hgiven hnegative
      · cases hnone
  · intro h
    cases h with
    | degree hgiven hnegative => exact Or.inl ⟨_, hgiven, hnegative, rfl⟩
    | derivativeDegree hfirst hgiven hnegative =>
        refine Or.inr ⟨_, degreeOr_eq_ok_iff.mpr ⟨hfirst, rfl⟩, ?_⟩
        exact Except.bind_eq_error_iff.mpr
          (.inl (degreeOr_eq_error_iff.mpr ⟨_, hgiven, hnegative, rfl⟩))

theorem decidesDegree_merged (a : AnalyzeArguments) (base : AnalysisSettings) :
    a.DecidesDegree base.timeDegree (a.merged base).timeDegree := by
  unfold merged
  cases hdegree : a.degree with
  | some d => exact .explicit hdegree (stores_ofNat d)
  | none =>
      cases hmodel : a.model with
      | some m => exact .model hdegree hmodel (by cases m <;> rfl)
      | none => exact .left ⟨hdegree, hmodel⟩

theorem decidesDerivativeDegree_merged (a : AnalyzeArguments) (base : AnalysisSettings) :
    a.DecidesDerivativeDegree base.derivativeDegree (a.merged base).derivativeDegree := by
  unfold merged
  cases hdegree : a.derivativeDegree with
  | some d => exact .explicit hdegree (stores_ofNat d)
  | none =>
      cases hmodel : a.model with
      | some m => exact .model hdegree hmodel
      | none => exact .left ⟨hdegree, hmodel⟩

theorem decidesCeiling_ceilingOr (a : AnalyzeArguments) (base : Option Float) :
    a.DecidesCeiling base (a.ceilingOr base) := by
  unfold ceilingOr
  split_ifs with hclip
  · exact .noClip hclip
  · rw [Bool.not_eq_true] at hclip
    cases hceiling : a.ceiling with
    | some c => exact .explicit hclip hceiling
    | none => exact .left ⟨hceiling, hclip⟩

theorem displayCeiling_merged (a : AnalyzeArguments) (base : AnalysisSettings) :
    (a.merged base).displayCeiling = a.ceilingOr base.displayCeiling := by
  unfold merged
  cases a.model <;> rfl

theorem labels_merged (a : AnalyzeArguments) (base : AnalysisSettings) :
    (a.merged base).labels = base.labels := by
  unfold merged
  cases a.model <;> rfl

theorem figure_merged (a : AnalyzeArguments) (base : AnalysisSettings) :
    (a.merged base).figure = base.figure := by
  unfold merged
  cases a.model <;> rfl

theorem decides_merged (a : AnalyzeArguments) (base : AnalysisSettings) :
    a.Decides base (a.merged base) := by
  refine ⟨decidesDegree_merged a base, decidesDerivativeDegree_merged a base, ?_,
    labels_merged a base, figure_merged a base, ?_⟩
  · rw [displayCeiling_merged]
    exact decidesCeiling_ceilingOr a base.displayCeiling
  · intro m hmodel hmissing
    apply toNat_effectiveDerivativeDegree
    unfold merged
    rw [hmissing, hmodel]
    rfl

section Unique

variable {degree degree' : UInt64} {choice choice' : Option UInt64}
  {ceiling ceiling' : Option Float}

theorem DecidesDegree.unique {value value' : UInt64} (h : a.DecidesDegree degree value)
    (h' : a.DecidesDegree degree' value') (hleft : a.LeavesDegree → degree = degree') :
    value = value' := by
  cases h <;> cases h' <;> grind [LeavesDegree, Stores, UInt64.toNat_inj]

theorem DecidesDerivativeDegree.unique {value value' : Option UInt64}
    (h : a.DecidesDerivativeDegree choice value) (h' : a.DecidesDerivativeDegree choice' value')
    (hleft : a.LeavesDerivativeDegree → choice = choice') : value = value' := by
  cases h <;> cases h' <;> grind [LeavesDerivativeDegree, Stores]

theorem DecidesCeiling.unique {value value' : Option Float} (h : a.DecidesCeiling ceiling value)
    (h' : a.DecidesCeiling ceiling' value') (hleft : a.LeavesCeiling → ceiling = ceiling') :
    value = value' := by
  cases h <;> cases h' <;> grind [LeavesCeiling]

end Unique

/-- Settings under the options follow from what no option decides on. -/
theorem Decides.unique {s' : AnalysisSettings} (h : a.Decides base s) (h' : a.Decides base' s')
    (hbase : a.AgreeApart base base') : s = s' :=
  AnalysisSettings.ext (h.degree.unique h'.degree hbase.degree)
    (h.derivativeDegree.unique h'.derivativeDegree hbase.derivativeDegree)
    (h.ceiling.unique h'.ceiling hbase.ceiling)
    (h.labels.trans (hbase.labels.trans h'.labels.symm))
    (h.figure.trans (hbase.figure.trans h'.figure.symm))

theorem AgreeApart.refl (a : AnalyzeArguments) (base : AnalysisSettings) : a.AgreeApart base base :=
  ⟨fun _ => rfl, fun _ => rfl, fun _ => rfl, rfl, rfl⟩

/-- There are settings exactly if no degree is refused, and the options decide on all of them. -/
theorem settings_eq_ok_iff_decides :
    a.settings base = .ok s ↔ a.FlagsValid ∧ a.Decides base s := by
  rw [settings_eq_ok_iff]
  refine and_congr_right fun _ => ?_
  constructor
  · rintro rfl
    exact decides_merged a base
  · exact fun h => h.unique (decides_merged a base) (.refl a base)

theorem AgreeApart.settings_eq (h : a.AgreeApart base base') :
    a.settings base = a.settings base' := by
  cases hsettings : a.settings base with
  | error failure => exact (settings_eq_error_iff.mpr (settings_eq_error_iff.mp hsettings)).symm
  | ok s =>
      obtain ⟨hflags, hs⟩ := settings_eq_ok_iff_decides.mp hsettings
      obtain rfl := hs.unique (decides_merged a base') h
      exact (settings_eq_ok_iff.mpr ⟨hflags, rfl⟩).symm

/-- **Options win over the file**: a degree below zero is refused, that of the times
before that of the derivatives. Else each setting is the one of its option, or of the
model where no option of its own decides, or of the file where neither does, and
nothing else of the file has an influence. -/
theorem options_win_over_file (a : AnalyzeArguments) (base : AnalysisSettings) :
    (∀ failure, a.settings base = .error failure ↔ a.Refuses failure) ∧
    ((∃ s, a.settings base = .ok s) ↔ a.FlagsValid) ∧
    (∀ s, a.settings base = .ok s ↔ a.FlagsValid ∧ a.Decides base s) ∧
    ∀ base', a.AgreeApart base base' → a.settings base = a.settings base' := by
  refine ⟨fun _ => settings_eq_error_iff, ?_, fun _ => settings_eq_ok_iff_decides,
    fun _ h => h.settings_eq⟩
  constructor
  · rintro ⟨s, hs⟩
    exact (settings_eq_ok_iff.mp hs).1
  · exact fun hflags => ⟨_, settings_eq_ok_iff.mpr ⟨hflags, rfl⟩⟩

example : settings { model := some .cubic, degree := some 0 } { derivativeDegree := some 7 } =
    .ok { timeDegree := 0 } := rfl

end GrowthCurve.CommandLine.AnalyzeArguments
