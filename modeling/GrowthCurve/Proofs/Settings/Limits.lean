import Mathlib
import GrowthCurve.Comparison

/-!
# Settings within their limits

Settings are refused exactly if they are outside the limits that are stated
here, whichever fault is found first.
-/

namespace GrowthCurve

/-- Panels have a hundred pixels each way at the least, and letters have a size. -/
structure Plot.FigureSize.Valid (size : Plot.FigureSize) : Prop where
  width : 100 ≤ size.panelWidth
  height : 100 ≤ size.panelHeight
  font : 0 < size.fontSize

theorem Plot.FigureSize.fault?_eq_none_iff {size : Plot.FigureSize} :
    size.fault? = none ↔ size.Valid := by
  unfold Plot.FigureSize.fault?
  constructor
  · intro hnone
    split_ifs at hnone with hsmall hfont
    simp only [Bool.or_eq_true, decide_eq_true_eq, not_or, UInt32.not_lt] at hsmall
    exact ⟨hsmall.1, hsmall.2, UInt32.pos_iff_ne_zero.mpr hfont⟩
  · rintro ⟨hwidth, hheight, hfont⟩
    rw [if_neg, if_neg (UInt32.pos_iff_ne_zero.mp hfont)]
    simpa only [Bool.or_eq_true, decide_eq_true_eq, not_or, UInt32.not_lt] using
      ⟨hwidth, hheight⟩

/-- A ceiling is a finite number, if there is one. -/
structure AnalysisSettings.Valid (settings : AnalysisSettings) : Prop where
  ceiling : ∀ c, settings.displayCeiling = some c → c.isFinite = true
  figure : settings.figure.Valid

theorem AnalysisSettings.ceilingFault?_eq_none_iff {settings : AnalysisSettings} :
    settings.ceilingFault? = none ↔
      ∀ c, settings.displayCeiling = some c → c.isFinite = true := by
  unfold AnalysisSettings.ceilingFault?
  cases settings.displayCeiling with
  | none => simp
  | some c => simp

theorem AnalysisSettings.fault?_eq_none_iff {settings : AnalysisSettings} :
    settings.fault? = none ↔ settings.Valid := by
  unfold AnalysisSettings.fault?
  rw [Option.orElse_eq_none, AnalysisSettings.ceilingFault?_eq_none_iff,
    Plot.FigureSize.fault?_eq_none_iff]
  exact ⟨fun h => ⟨h.1, h.2⟩, fun h => ⟨h.ceiling, h.figure⟩⟩

def ComparisonSettings.Valid (settings : ComparisonSettings) : Prop :=
  settings.figure.Valid

namespace Comparison

/-- A number of files that can be compared: two or more, and as many as there
are labels unless there are none. -/
structure Comparable (settings : ComparisonSettings) (files : Nat) : Prop where
  valid : settings.Valid
  several : 2 ≤ files
  labelled : settings.labels = [] ∨ settings.labels.length = files

theorem fault?_eq_none_iff {settings : ComparisonSettings} {files : Nat} :
    fault? settings files = none ↔ Comparable settings files := by
  unfold fault? ComparisonSettings.fault?
  cases hfault : settings.figure.fault? with
  | some fault =>
    simp only [reduceCtorEq, false_iff]
    intro h
    rw [Plot.FigureSize.fault?_eq_none_iff.mpr h.valid] at hfault
    cases hfault
  | none =>
    have hvalid : settings.Valid := Plot.FigureSize.fault?_eq_none_iff.mp hfault
    constructor
    · intro hnone
      dsimp only at hnone
      split_ifs at hnone with hfew hlabels
      exact ⟨hvalid, not_lt.mp hfew, by tauto⟩
    · rintro ⟨-, hseveral, hlabels⟩
      dsimp only
      rw [if_neg (not_lt.mpr hseveral), if_neg (by tauto)]

end Comparison

end GrowthCurve
