import Mathlib
import GrowthCurve.Polynomial.Rotations
import GrowthCurve.Proofs.Analysis.Runs
import GrowthCurve.Proofs.Binary.Range
import GrowthCurve.Proofs.Fit.Computed
import GrowthCurve.Proofs.Plot.Inside
import GrowthCurve.Proofs.Plot.Sizes

/-!
# Panels of loaded series

The columns of a loaded series are of one length, and a fit predicts one value
for each abscissa, whichever solver it is made with. So the panels of a series are
accepted, and their drawing comes to a figure unless two panels are too wide
together or the dashes of an overlay have no end.
-/

namespace GrowthCurve

/-! ## Fits of a series -/

namespace SeriesFits

/-- No fit failed because of the lengths of its columns. -/
structure Consistent (f : SeriesFits) : Prop where
  time : ∀ n k, f.time ≠ .error (.lengthMismatch n k)
  derivative : ∀ n k, f.derivative ≠ some (.error (.lengthMismatch n k))

/-- Both fits have one prediction for each abscissa, as far as they succeeded. -/
structure Predicts (f : SeriesFits) (xs : List Float) : Prop where
  time : ∀ fit, f.time? = some fit → fit.predicted.length = xs.length
  derivative : ∀ fit, f.derivative? = some fit → fit.predicted.length = xs.length

/-- Nothing that the two fits predict is infinite or NaN. -/
structure FinitePredictions (f : SeriesFits) : Prop where
  time : ∀ fit, f.time? = some fit → ∀ y ∈ fit.predicted, y.isFinite = true
  derivative : ∀ fit, f.derivative? = some fit → ∀ y ∈ fit.predicted, y.isFinite = true

variable {solve : Polynomial.Solver Float} {s : Series} {settings : AnalysisSettings}

theorem derivative_ofSeries_eq_some_iff {r : Except (FitError Float) (Fit Float)} :
    (ofSeries solve s settings).derivative = some r ↔ ∃ ds, s.derivatives = some ds ∧
      Fit.computeWith solve s.xs ds (signedDegree settings.effectiveDerivativeDegree) = r :=
  Option.map_eq_some_iff

theorem consistent_ofSeries (h : s.Aligned) : (ofSeries solve s settings).Consistent := by
  have hxs := Series.Aligned.length_xs s
  refine ⟨?_, ?_⟩
  · intro n k
    exact Fit.computeWith_ne_lengthMismatch (hxs.trans h.times.symm) n k
  · intro n k hderivative
    obtain ⟨ds, hds, hfit⟩ := derivative_ofSeries_eq_some_iff.mp hderivative
    exact Fit.computeWith_ne_lengthMismatch (hxs.trans (h.derivatives ds hds).symm) n k hfit

theorem predicts_ofSeries (solve : Polynomial.Solver Float) (s : Series)
    (settings : AnalysisSettings) : (ofSeries solve s settings).Predicts s.xs := by
  refine ⟨?_, ?_⟩
  · intro fit hfit
    exact Fit.length_predicted_of_computeWith (time?_eq_some_iff.mp hfit)
  · intro fit hfit
    obtain ⟨ds, -, hcompute⟩ :=
      derivative_ofSeries_eq_some_iff.mp (derivative?_eq_some_iff.mp hfit)
    exact Fit.length_predicted_of_computeWith hcompute

end SeriesFits

theorem Series.isFinite_of_mem_xs {s : Series} {x : Float} (h : x ∈ s.xs) :
    x.isFinite = true := by
  obtain ⟨n, -, rfl⟩ := List.mem_map.mp h
  exact (Binary.below_toFloat n).isFinite

/-! ## Panels of an analysis -/

namespace Analysis

theorem panel_paired {xs : List Float} {raw : Plot.Curve Float} {fit : Option (Fit Float)}
    (xLabel yLabel : String) (hraw : raw.xs.length = raw.ys.length)
    (hfit : ∀ f, fit = some f → f.predicted.length = xs.length) :
    (panel xLabel yLabel xs raw fit).Paired := by
  intro c hc
  rcases List.mem_cons.mp hc with rfl | hc
  · exact hraw
  · rw [Option.mem_toList, Option.map_eq_some_iff] at hc
    obtain ⟨f, hf, rfl⟩ := hc
    exact (hfit f hf).symm

/-- What every panel of an analysis is like, the one of the times and the one of the
derivatives if there is one. -/
theorem forall_mem_panels {s : Series} {fits : SeriesFits} {settings : AnalysisSettings}
    {q : Plot.Panel Float → Prop} (htime : q (timePanel s fits settings))
    (hderivative : ∀ ds, s.derivatives = some ds → q (derivativePanel s ds fits settings)) :
    ∀ p ∈ panels s fits settings, q p := by
  intro p hp
  rcases List.mem_cons.mp hp with rfl | hp
  · exact htime
  · split at hp
    case h_1 ds _ hds _ =>
      obtain rfl := List.mem_singleton.mp hp
      exact hderivative ds hds
    case h_2 => cases hp

theorem panels_paired {s : Series} {fits : SeriesFits} (settings : AnalysisSettings)
    (h : s.Aligned) (hfits : fits.Predicts s.xs) : ∀ p ∈ panels s fits settings, p.Paired := by
  have hxs := Series.Aligned.length_xs s
  refine forall_mem_panels ?_ ?_
  · exact panel_paired _ _ (hxs.trans h.times.symm) hfits.time
  · exact fun ds hds => panel_paired _ _ (hxs.trans (h.derivatives ds hds).symm) hfits.derivative

variable {solve : Polynomial.Solver Float} {s : Series} {settings : AnalysisSettings}
  {figure : Plot.Figure}

/-- The panels of an aligned series are accepted. -/
theorem panelsFault?_panels (solve : Polynomial.Solver Float) (h : s.Aligned)
    (settings : AnalysisSettings) :
    Plot.panelsFault? (panels s (.ofSeries solve s settings) settings) = none :=
  Plot.panelsFault?_eq_none_iff.mpr
    ⟨List.cons_ne_nil _ _, panels_paired settings h (SeriesFits.predicts_ofSeries solve s settings)⟩

theorem length_panels (solve : Polynomial.Solver Float) (s : Series)
    (settings : AnalysisSettings) :
    (panels s (.ofSeries solve s settings) settings).length =
      if s.derivatives.isSome then 2 else 1 := by
  unfold panels SeriesFits.ofSeries
  cases s.derivatives with
  | none => rfl
  | some ds => rfl

/-! ## Figures of an analysis -/

/-- The drawing of a series comes to a figure: two panels are not too wide
together, and the dashes of all overlays come to an end. -/
structure Drawable (solve : Polynomial.Solver Float) (s : Series)
    (settings : AnalysisSettings) : Prop where
  width : s.derivatives = none ∨ settings.figure.panelWidth.toNat < 2 ^ 31
  dashes : ∀ p ∈ panels s (.ofSeries solve s settings) settings, p.DashesEnd Plot.cutLimit

theorem exists_drawn_iff (h : s.Aligned) :
    (∃ figure, drawn solve s settings = .ok figure) ↔ Drawable solve s settings := by
  have hdrawn : (∃ figure, drawn solve s settings = .ok figure) ↔ _ :=
    Plot.exists_drawWith_iff (panelsFault?_panels solve h settings) settings.figure
  have hlength : (panels s (.ofSeries solve s settings) settings).length = 1 ↔
      s.derivatives = none := by
    rw [length_panels]
    cases s.derivatives with
    | none => exact iff_of_true rfl rfl
    | some ds => exact iff_of_false (by simp) nofun
  rw [hdrawn, Plot.sizesFit_analysis_iff, hlength]
  exact ⟨fun h => ⟨h.1, h.2⟩, fun h => ⟨h.width, h.dashes⟩⟩

theorem finiteDashes_panel {xs : List Float} {raw : Plot.Curve Float} {fit : Option (Fit Float)}
    (xLabel yLabel : String) (hraw : raw.line = .solid)
    (hxs : ∀ x ∈ xs, x.isFinite = true)
    (hfit : ∀ f, fit = some f → ∀ y ∈ f.predicted, y.isFinite = true) :
    (panel xLabel yLabel xs raw fit).FiniteDashes := by
  intro c hc hdashed q hq
  rcases List.mem_cons.mp hc with rfl | hc
  · cases hraw.symm.trans hdashed
  · rw [Option.mem_toList, Option.map_eq_some_iff] at hc
    obtain ⟨f, hf, rfl⟩ := hc
    have hzip : q ∈ xs.zip f.predicted := List.mem_of_mem_filter hq
    exact ⟨hxs _ (List.of_mem_zip hzip).1, hfit f hf _ (List.of_mem_zip hzip).2⟩

/-- Predictions that are finite are drawn, unless the figure is too wide. -/
theorem drawable_of_finite
    (hwidth : s.derivatives = none ∨ settings.figure.panelWidth.toNat < 2 ^ 31)
    (hfits : (SeriesFits.ofSeries solve s settings).FinitePredictions) :
    Drawable solve s settings := by
  have hxs : ∀ x ∈ s.xs, x.isFinite = true := fun _ => Series.isFinite_of_mem_xs
  have hfinite : ∀ p ∈ panels s (.ofSeries solve s settings) settings, p.FiniteDashes :=
    forall_mem_panels (finiteDashes_panel _ _ rfl hxs hfits.time)
      fun _ _ => finiteDashes_panel _ _ rfl hxs hfits.derivative
  exact ⟨hwidth, fun p hp => (hfinite p hp).dashesEnd⟩

theorem length_frames_of_drawn (h : drawn solve s settings = .ok figure) :
    figure.frames.length = if s.derivatives.isSome then 2 else 1 :=
  (Plot.length_frames_of_draw h).trans (length_panels solve s settings)

end Analysis

/-! ## Panels of a comparison -/

namespace Comparison

variable {series : List Series} {settings : ComparisonSettings}

theorem panelsFault?_panel (h : ∀ s ∈ series, s.Aligned) (labels : List String)
    (axes : AxisLabels) : Plot.panelsFault? [panel series labels axes] = none := by
  refine Plot.panelsFault?_eq_none_iff.mpr ⟨List.cons_ne_nil _ _, ?_⟩
  intro p hp c hc
  obtain rfl := List.mem_singleton.mp hp
  obtain ⟨⟨s, i⟩, hs, rfl⟩ := List.mem_map.mp hc
  have hmem : s ∈ series := List.fst_mem_of_mem_zipIdx hs
  exact (Series.Aligned.length_xs s).trans (h s hmem).times.symm

theorem dashesEnd_panel (labels : List String) (axes : AxisLabels) :
    (panel series labels axes).DashesEnd Plot.cutLimit := by
  refine Plot.Panel.dashesEnd_of_solid ?_
  intro c hc
  obtain ⟨⟨s, i⟩, -, rfl⟩ := List.mem_map.mp hc
  rfl

/-- A comparison of aligned series always comes to a figure. -/
theorem exists_drawn (h : ∀ s ∈ series, s.Aligned) :
    ∃ figure, drawn series settings = .ok figure := by
  refine Plot.exists_draw (panelsFault?_panel h _ _) (Plot.sizesFit_comparison _ _ _ _) ?_
  intro p hp
  obtain rfl := List.mem_singleton.mp hp
  exact dashesEnd_panel settings.labels settings.axes

end Comparison

/-! ## Four runs -/

/-- A file of four runs with derivatives, of which the second is out of proportion. -/
def fourRuns : String :=
  "1,1,5\n2,1,9\n3,3,1\n4,3,2\n"

/-- The series of the four runs. The first derivative counts as zero. -/
def fourRunsSeries (source : Path) : Series :=
  ⟨source, [1, 2, 3, 4], [1, 1, 3, 3], some [0, 9, 1, 2]⟩

theorem read_fourRuns (source : Path) :
    Series.read source fourRuns = .ok (fourRunsSeries source) := by
  have hrecords : Series.readRecords 1 none (Series.content fourRuns.toList) =
      .ok [⟨1, 1, some 5⟩, ⟨2, 1, some 9⟩, ⟨3, 3, some 1⟩, ⟨4, 3, some 2⟩] := by decide +kernel
  unfold Series.read
  rw [hrecords]
  rfl

theorem loads_fourRuns_iff {path : Path} {s : Series} :
    Series.Loads (fun _ => .ok fourRuns) path s ↔ s = fourRunsSeries path := by
  have hruns : Series.Loads (fun _ => .ok fourRuns) path (fourRunsSeries path) :=
    ⟨fourRuns, rfl, read_fourRuns path⟩
  constructor
  · exact fun hs => hs.unique hruns
  · rintro rfl
    exact hruns

theorem xs_fourRuns (source : Path) : (fourRunsSeries source).xs = [1, 2, 3, 4] := by
  have hsizes : ([1, 2, 3, 4] : List UInt64).map UInt64.toFloat = [1, 2, 3, 4] := by
    decide +kernel
  exact hsizes

/-- The mean of the times. -/
def fourRunsTime : Fit Float :=
  ⟨0, [2], [2, 2, 2, 2], 0, some ⟨[2], 2.5, 1.5⟩⟩

/-- The mean of the derivatives. -/
def fourRunsDerivative : Fit Float :=
  ⟨0, [3], [3, 3, 3, 3], 0, some ⟨[3], 2.5, 1.5⟩⟩

namespace SeriesFits

variable {source : Path} {settings : AnalysisSettings}

theorem time_fourRuns (h : settings.timeDegree = 0) :
    (ofSeries Polynomial.Rotations.solve (fourRunsSeries source) settings).time =
      .ok fourRunsTime := by
  have hfit : Fit.computeWith Polynomial.Rotations.solve [1, 2, 3, 4] [1, 1, 3, 3] (0 : ℕ) =
      .ok fourRunsTime := by
    apply Fit.computeWith_of_solved
    all_goals decide +kernel
  unfold ofSeries
  rw [h, xs_fourRuns]
  exact hfit

theorem derivative_fourRuns (h : settings.effectiveDerivativeDegree = 0) :
    (ofSeries Polynomial.Rotations.solve (fourRunsSeries source) settings).derivative =
      some (.ok fourRunsDerivative) := by
  have hfit : Fit.computeWith Polynomial.Rotations.solve [1, 2, 3, 4] [0, 9, 1, 2] (0 : ℕ) =
      .ok fourRunsDerivative := by
    apply Fit.computeWith_of_solved
    all_goals decide +kernel
  refine derivative_ofSeries_eq_some_iff.mpr ⟨[0, 9, 1, 2], rfl, ?_⟩
  rw [h, xs_fourRuns]
  exact hfit

/-- Four runs are too few for a fit of degree four, whatever solves it. -/
theorem time_fourRuns_of_four (solve : Polynomial.Solver Float) (h : settings.timeDegree = 4) :
    (ofSeries solve (fourRunsSeries source) settings).time = .error (.insufficientData 5 4) := by
  unfold ofSeries
  rw [h]
  rfl

theorem anySucceeded_fourRuns (h : settings.effectiveDerivativeDegree = 0) :
    (ofSeries Polynomial.Rotations.solve (fourRunsSeries source) settings).AnySucceeded :=
  Or.inr ⟨_, derivative_fourRuns h⟩

theorem finitePredictions_fourRuns (htime : settings.timeDegree = 0 ∨ settings.timeDegree = 4)
    (hderivative : settings.effectiveDerivativeDegree = 0) :
    (ofSeries Polynomial.Rotations.solve (fourRunsSeries source) settings).FinitePredictions := by
  refine ⟨?_, ?_⟩
  · intro fit hfit
    rw [time?_eq_some_iff] at hfit
    rcases htime with hzero | hfour
    · obtain rfl := Except.ok.inj ((time_fourRuns hzero).symm.trans hfit)
      decide
    · cases (time_fourRuns_of_four _ hfour).symm.trans hfit
  · intro fit hfit
    rw [derivative?_eq_some_iff, derivative_fourRuns hderivative] at hfit
    obtain rfl := Except.ok.inj (Option.some.inj hfit)
    decide

end SeriesFits

theorem Analysis.drawable_fourRuns {source : Path} {settings : AnalysisSettings}
    (htime : settings.timeDegree = 0 ∨ settings.timeDegree = 4)
    (hderivative : settings.effectiveDerivativeDegree = 0)
    (hwidth : settings.figure.panelWidth.toNat < 2 ^ 31) :
    Drawable Polynomial.Rotations.solve (fourRunsSeries source) settings :=
  drawable_of_finite (Or.inr hwidth) (SeriesFits.finitePredictions_fourRuns htime hderivative)

theorem Analysis.exists_drawn_fourRuns {source : Path} {settings : AnalysisSettings}
    (htime : settings.timeDegree = 0 ∨ settings.timeDegree = 4)
    (hderivative : settings.effectiveDerivativeDegree = 0)
    (hwidth : settings.figure.panelWidth.toNat < 2 ^ 31) :
    ∃ figure, drawn Polynomial.Rotations.solve (fourRunsSeries source) settings = .ok figure :=
  (exists_drawn_iff (Series.aligned_of_read (read_fourRuns source))).mpr
    (drawable_fourRuns htime hderivative hwidth)

end GrowthCurve
