import Mathlib
import GrowthCurve.Proofs.Analysis.Panels
import GrowthCurve.Proofs.Fit.Finite
import GrowthCurve.Proofs.Report.RoundTrip

/-!
# Scores of the fits of a series

A file may hold NaN and infinite numbers, and a fit of them succeeds. Its score
is then no number, unless all fitted numbers are equal, and the report that holds
it is not read back. Numbers of moderate size that are not too close have a finite
score.
-/

namespace GrowthCurve

open GrowthCurve.Binary Score

variable {solve : Polynomial.Solver Float} {s : Series} {settings : AnalysisSettings}
  {ys : List Float} {fit : Fit Float} {r : Report}

namespace SeriesFits

/-- A fit of a series that succeeded, together with the numbers it was fitted to. -/
inductive Fitted (solve : Polynomial.Solver Float) (s : Series) (settings : AnalysisSettings) :
    List Float → Fit Float → Prop
  | time {fit : Fit Float} (h : (ofSeries solve s settings).time = .ok fit) :
      Fitted solve s settings s.times fit
  | derivative {ys : List Float} {fit : Fit Float} (hys : s.derivatives = some ys)
      (h : (ofSeries solve s settings).derivative = some (.ok fit)) : Fitted solve s settings ys fit

theorem Fitted.exists_degree (h : Fitted solve s settings ys fit) :
    ∃ degree, Fit.computeWith solve s.xs ys degree = .ok fit := by
  cases h with
  | time h => exact ⟨_, h⟩
  | derivative hys h =>
      obtain ⟨ys', hys', h⟩ := derivative_ofSeries_eq_some_iff.mp h
      obtain rfl := Option.some.inj (hys.symm.trans hys')
      exact ⟨_, h⟩

/-- It is the fitted numbers and the predictions that are scored. -/
theorem Fitted.scored (h : Fitted solve s settings ys fit) :
    GrowthCurve.rSquared ys fit.predicted = .ok fit.rSquared ∧ fit.degree < s.size := by
  obtain ⟨degree, h⟩ := h.exists_degree
  obtain ⟨-, -, henough, p, score, -, hscore, rfl⟩ := Fit.computeWith_eq_ok_iff.mp h
  rw [Series.Aligned.length_xs] at henough
  exact ⟨hscore, henough⟩

end SeriesFits

/-! ## Their report -/

namespace Analysis

/-- The report holds the score of every fit. -/
theorem score_mem_reals (hfit : SeriesFits.Fitted solve s settings ys fit)
    (hr : (ofSeries solve s settings).report = .ok r) : fit.rSquared ∈ r.reals := by
  obtain ⟨time, derivative, htime, hderivative, rfl⟩ := report_eq_ok_iff.mp hr
  have hscore : ∀ f : Fit Float, f.rSquared ∈ (FitSummary.ofFit f).reals := fun f =>
    List.mem_append_right _ (List.mem_singleton_self _)
  cases hfit with
  | time h =>
      obtain rfl := Except.ok.inj (h.symm.trans htime)
      exact Report.timeReals_subset (hscore fit)
  | derivative _ h =>
      obtain ⟨f, rfl, hf⟩ := Option.map_eq_some_iff.mp (hderivative.symm.trans h)
      obtain rfl := Except.ok.inj hf
      exact Report.derivativeReals_subset rfl (hscore f)

theorem sized_report (hsize : s.size < 2 ^ 64) (hr : (ofSeries solve s settings).report = .ok r) :
    r.Sized := by
  obtain ⟨time, derivative, htime, hderivative, rfl⟩ := report_eq_ok_iff.mp hr
  refine ⟨hsize, (SeriesFits.Fitted.time htime).scored.2.trans hsize, ?_⟩
  intro summary hsummary
  obtain ⟨f, rfl, rfl⟩ := Option.map_eq_some_iff.mp hsummary
  obtain ⟨ds, hds, -⟩ := SeriesFits.derivative_ofSeries_eq_some_iff.mp hderivative
  exact (SeriesFits.Fitted.derivative hds hderivative).scored.2.trans hsize

end Analysis

/-! ## Their scores -/

namespace SeriesFits

/-- **When the score of a fit is finite**: a fit that succeeded has a finite score if
all numbers are equal, or if all are finite, their deviations are not lost and the
quotient does not overflow. That is so if all numbers and predictions are up to
`2 ^ a` in size and two of the numbers `2 ^ b` apart, for exponents that are not
extreme. A report with a score that is not finite is refused when it is read back. -/
theorem score_of_fitted (h : Fitted solve s settings ys fit) :
    (fit.rSquared.isFinite = true ↔ (∀ y ∈ ys, ∀ z ∈ ys, (y == z) = true) ∨
      (∀ y ∈ ys, y.isFinite = true) ∧ 0 < squaresAbout (mean ys) ys ∧
        (squaredResiduals ys fit.predicted / squaresAbout (mean ys) ys).isFinite = true) ∧
    (∀ a b : ℤ, a ≤ 484 → -536 ≤ b → a - b ≤ 483 → ys.length < 2 ^ 53 →
      (∀ y ∈ ys ++ fit.predicted, y.isFinite = true ∧ |value y| ≤ 2 ^ a) →
      (∃ y ∈ ys, ∃ z ∈ ys, 2 ^ b ≤ value y - value z) → fit.rSquared.isFinite = true) ∧
    (∀ r, (Analysis.ofSeries solve s settings).report = .ok r → s.size < 2 ^ 64 → ReadBack r.reals →
      fit.rSquared.isFinite = false → Report.ofJson r.toJson = .error .mismatch) := by
  have hfinite := isFinite_score_iff h.scored.1
  refine ⟨hfinite, ?_, ?_⟩
  · rintro a b ha hb hab hcount hbounds ⟨y, hy, z, hz, hapart⟩
    obtain ⟨hys, hps⟩ := List.forall_mem_append.mp hbounds
    have hdeviations := (le_squaresAbout_mean ha hb hcount hys hy hz hapart)
    have hquotient := isFinite_quotient ha hb hab hcount hys hps hy hz hapart
    have hpos : 0 < squaresAbout (mean ys) ys :=
      (pos_iff_value hdeviations.1).mpr ((by positivity : (0 : ℚ) < _).trans_le hdeviations.2)
    exact hfinite.mpr (.inr ⟨fun y hy => (hys y hy).1, hpos, hquotient⟩)
  · intro r hr hsize hcode hscore
    exact Report.ofJson_toJson_of_not_isFinite (Analysis.sized_report hsize hr) hcode
      ⟨_, Analysis.score_mem_reals h hr, hscore⟩

/-- Four runs of which the last two take longer. -/
def steps : Series :=
  ⟨⟨"steps.txt"⟩, [1, 2, 3, 4], [1, 1, 3, 3], none⟩

/-- The mean of the four runs. -/
def stepsFit : Fit Float :=
  ⟨0, [2], [2, 2, 2, 2], 0, some ⟨[2], 2.5, 1.5⟩⟩

theorem fitted_steps :
    Fitted Polynomial.Rotations.solve steps { timeDegree := 0 } [1, 1, 3, 3] stepsFit := by
  have hfit : Fit.computeWith Polynomial.Rotations.solve steps.xs [1, 1, 3, 3] (0 : ℕ) =
      .ok stepsFit := by
    apply Fit.computeWith_of_solved
    all_goals decide +kernel
  exact .time hfit

/-- Two runs, the second one without a number for its time. -/
def untimed : Series :=
  ⟨⟨"runs.txt"⟩, [1, 2], [1, Float.nan], none⟩

def untimedFit : Fit Float :=
  ⟨1, [Float.nan, Float.nan], [Float.nan, Float.nan], Float.nan,
    some ⟨[Float.nan, Float.nan], 1.5, 0.5⟩⟩

theorem fitted_untimed :
    Fitted Polynomial.Rotations.solve untimed {} [1, Float.nan] untimedFit := by
  have hfit : Fit.computeWith Polynomial.Rotations.solve untimed.xs [1, Float.nan] (1 : ℕ) =
      .ok untimedFit := by
    apply Fit.computeWith_of_solved
    all_goals decide +kernel
  exact .time hfit

def untimedReport : Report :=
  .ofFits ⟨"runs.txt"⟩ 2 untimedFit none

theorem report_untimed :
    (Analysis.ofSeries Polynomial.Rotations.solve untimed {}).report = .ok untimedReport := by
  cases fitted_untimed with
  | time h => exact Analysis.report_eq_ok_iff.mpr ⟨untimedFit, none, h, rfl, rfl⟩
  | derivative hys => cases hys

theorem score_of_fitted_steps :
    Fitted Polynomial.Rotations.solve steps { timeDegree := 0 } [1, 1, 3, 3] stepsFit ∧
    stepsFit.rSquared.isFinite = true ∧
    Fitted Polynomial.Rotations.solve untimed {} [1, Float.nan] untimedFit ∧
    untimedFit.rSquared.isFinite = false ∧
    Report.ofJson untimedReport.toJson = .error .mismatch := by
  obtain ⟨-, hmoderate, -⟩ := score_of_fitted fitted_steps
  obtain ⟨hfinite, -, hreport⟩ := score_of_fitted fitted_untimed
  have hone : value (1 : Float) = 1 := value_ofNat (by decide : 1 < 2 ^ 53)
  have htwo : value (2 : Float) = 2 := value_ofNat (by decide : 2 < 2 ^ 53)
  have hthree : value (3 : Float) = 3 := value_ofNat (by decide : 3 < 2 ^ 53)
  have hbounds : ∀ y ∈ [1, 1, 3, 3] ++ stepsFit.predicted,
      y.isFinite = true ∧ |value y| ≤ 2 ^ (2 : ℤ) := by
    have hall : ∀ y ∈ [1, 1, 3, 3] ++ stepsFit.predicted, y.isFinite = true ∧
        (y = 1 ∨ y = 2 ∨ y = 3) := by decide +kernel
    intro y hy
    obtain ⟨hfinite, rfl | rfl | rfl⟩ := hall y hy
    · exact ⟨hfinite, by norm_num [hone]⟩
    · exact ⟨hfinite, by norm_num [htwo]⟩
    · exact ⟨hfinite, by norm_num [hthree]⟩
  have hapart : ∃ y ∈ [1, 1, 3, (3 : Float)], ∃ z ∈ [1, 1, 3, (3 : Float)],
      2 ^ (1 : ℤ) ≤ value y - value z := by
    refine ⟨3, by simp, 1, by simp, ?_⟩
    norm_num [hone, hthree]
  have hcode : ReadBack untimedReport.reals := by
    unfold ReadBack
    decide +kernel
  have hunequal : ¬ ∀ y ∈ [1, Float.nan], ∀ z ∈ [1, Float.nan], (y == z) = true := by
    decide +kernel
  have hendless : ¬ ∀ y ∈ [1, Float.nan], y.isFinite = true := by decide +kernel
  have hscore : untimedFit.rSquared.isFinite = false := by
    rw [← Bool.not_eq_true, hfinite]
    exact not_or.mpr ⟨hunequal, fun h => hendless h.1⟩
  exact ⟨fitted_steps,
    hmoderate 2 1 (by decide) (by decide) (by decide) (by decide) hbounds hapart,
    fitted_untimed, hscore, hreport untimedReport report_untimed (by decide) hcode hscore⟩

/-- A file with a time that is NaN is read, its fit succeeds and nobody can read
the report. -/
theorem score_of_fitted_nan :
    Series.read ⟨"runs.txt"⟩ "1,1\n2,nan" = .ok untimed ∧
    AnalysisSettings.fault? {} = none ∧
    (SeriesFits.ofSeries Polynomial.Rotations.solve untimed {}).time = .ok untimedFit ∧
    untimedFit.rSquared.isFinite = false ∧
    (Analysis.ofSeries Polynomial.Rotations.solve untimed {}).report = .ok untimedReport ∧
    Report.ofJson untimedReport.toJson = .error .mismatch := by
  refine ⟨by decide +kernel, by decide +kernel, ?_, by decide +kernel, report_untimed,
    by decide +kernel⟩
  cases fitted_untimed with
  | time h => exact h
  | derivative hys => cases hys

end SeriesFits

end GrowthCurve
