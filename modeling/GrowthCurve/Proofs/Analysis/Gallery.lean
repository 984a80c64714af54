import Mathlib
import GrowthCurve.Proofs.Analysis.Panels

/-!
# What a gallery sees

Analyses and comparisons that share a gallery add their figures to it in the
order of the calls. Whether a call adds one depends on its settings, its files
and its fits, and not on whether the call as a whole succeeds.
-/

namespace GrowthCurve

/-! ## Calls -/

/-- A call, with the files that there are at the time. -/
inductive Call where
  | analysis (files : Path → Except FileError String) (path : Path) (settings : AnalysisSettings)
  | report (files : Path → Except FileError String) (path : Path) (settings : AnalysisSettings)
  | comparison (files : Path → Except FileError String) (paths : List Path)
    (settings : ComparisonSettings)

namespace Call

section Meaning

variable (solve : Polynomial.Solver Float)

def after (figures : List Plot.Figure) : Call → List Plot.Figure
  | analysis files path settings =>
    ((Analysis.run solve (.ofFiles files) .gallery path settings).run.run figures).2
  | report files path settings =>
    ((Analysis.runReport solve (.ofFiles files) .gallery path settings).run.run figures).2
  | comparison files paths settings =>
    ((Comparison.run (.ofFiles files) .gallery paths settings).run.run figures).2

def afterAll (figures : List Plot.Figure) (calls : List Call) : List Plot.Figure :=
  calls.foldl (after solve) figures

/-- Drawing returns for the series that the call loads, if it gets that far. -/
def Drawable : Call → Prop
  | analysis files path settings | report files path settings =>
    settings.Valid → ∀ s, Series.Loads files path s →
      (SeriesFits.ofSeries solve s settings).AnySucceeded → Analysis.Drawable solve s settings
  | comparison _ _ _ => True

/-- What it takes for a call to add a figure: settings within their limits,
files that load and, in an analysis, one fit that succeeds. -/
def Delivers : Call → Prop
  | analysis files path settings | report files path settings =>
    settings.Valid ∧
      ∃ s, Series.Loads files path s ∧ (SeriesFits.ofSeries solve s settings).AnySucceeded
  | comparison files paths settings =>
    Comparison.Comparable settings paths.length ∧ ∀ path ∈ paths, ∃ s, Series.Loads files path s

/-- The figure is the one of the loaded files. An analysis has a second panel
if its file has derivatives. -/
def IsFigure (figure : Plot.Figure) : Call → Prop
  | analysis files path settings | report files path settings =>
    ∃ s, Series.Loads files path s ∧ Analysis.drawn solve s settings = .ok figure ∧
      figure.frames.length = if s.derivatives.isSome then 2 else 1
  | comparison files paths settings =>
    ∃ series, List.Forall₂ (Series.Loads files) paths series ∧
      Comparison.drawn series settings = .ok figure ∧ figure.frames.length = 1

/-- What a call adds to the gallery, if anything. -/
structure Shows (c : Call) (shown : Option Plot.Figure) : Prop where
  delivers : shown.isSome ↔ c.Delivers solve
  figure : ∀ figure, shown = some figure → c.IsFigure solve figure

end Meaning

variable {solve : Polynomial.Solver Float}

theorem Shows.of_not_delivers {c : Call} (h : ¬ c.Delivers solve) : c.Shows solve none := by
  refine ⟨?_, nofun⟩
  simpa using h

theorem Shows.of_delivers {c : Call} {figure : Plot.Figure} (h : c.Delivers solve)
    (hfigure : c.IsFigure solve figure) : c.Shows solve (some figure) := by
  refine ⟨?_, ?_⟩
  · simpa using h
  · intro shown hshown
    obtain rfl := Option.some.inj hshown
    exact hfigure

/-! ## One call -/

section Step

variable {files : Path → Except FileError String} {figures figures' : List Plot.Figure}

theorem shows_of_analysis_ends {path : Path} {settings : AnalysisSettings}
    {r : Except Error Analysis} (hdraws : (analysis files path settings).Drawable solve)
    (h : Analysis.Ends solve (.ofFiles files) .gallery path settings figures r figures') :
    ∃ shown : Option Plot.Figure, figures' = figures ++ shown.toList ∧
      (analysis files path settings).Shows solve shown := by
  have hfinds := FileReader.finds_ofFiles files figures
  cases h with
  | refused _ hinvalid =>
      refine ⟨none, (List.append_nil _).symm, .of_not_delivers ?_⟩
      exact fun hdelivers => hinvalid hdelivers.1
  | unloaded _ hload =>
      obtain ⟨hnone, rfl⟩ := Series.not_loads_of_load hfinds hload
      refine ⟨none, (List.append_nil _).symm, .of_not_delivers ?_⟩
      rintro ⟨-, s, hs, -⟩
      exact hnone ⟨s, hs⟩
  | unfitted _ hload hfailed =>
      obtain ⟨hs, rfl⟩ := Series.loads_of_load hfinds hload
      refine ⟨none, (List.append_nil _).symm, .of_not_delivers ?_⟩
      rintro ⟨-, s', hs', hany⟩
      rw [hs'.unique hs] at hany
      exact hfailed hany
  | undrawn hvalid hload hany hdraw =>
      obtain ⟨hs, rfl⟩ := Series.loads_of_load hfinds hload
      obtain ⟨figure, hfigure⟩ :=
        (Analysis.exists_drawn_iff (Series.aligned_of_loads hs)).mpr (hdraws hvalid _ hs hany)
      cases hfigure.symm.trans hdraw
  | shown hvalid hload hany hdraw hview =>
      obtain ⟨hs, rfl⟩ := Series.loads_of_load hfinds hload
      cases (Viewer.run_gallery _ _).symm.trans hview
      exact ⟨some _, rfl, .of_delivers ⟨hvalid, _, hs, hany⟩
        ⟨_, hs, hdraw, Analysis.length_frames_of_drawn hdraw⟩⟩

theorem shows_of_comparison_ends {paths : List Path} {settings : ComparisonSettings}
    {r : Except Error (List Series)}
    (h : Comparison.Ends (.ofFiles files) .gallery paths settings figures r figures') :
    ∃ shown : Option Plot.Figure, figures' = figures ++ shown.toList ∧
      (comparison files paths settings).Shows solve shown := by
  have hfinds := FileReader.finds_ofFiles files figures
  cases h with
  | refused _ hincomparable =>
      refine ⟨none, (List.append_nil _).symm, .of_not_delivers ?_⟩
      exact fun hdelivers => hincomparable hdelivers.1
  | unloaded _ hload =>
      obtain ⟨hnone, rfl⟩ := Series.not_loads_of_loadAll hfinds hload
      refine ⟨none, (List.append_nil _).symm, .of_not_delivers ?_⟩
      exact fun hdelivers => hnone hdelivers.2
  | undrawn _ hload hdraw =>
      obtain ⟨hseries, rfl⟩ := Series.loads_of_loadAll hfinds hload
      obtain ⟨figure, hfigure⟩ := Comparison.exists_drawn (Series.aligned_of_forall₂_loads hseries)
      cases hfigure.symm.trans hdraw
  | shown hcomparable hload hdraw hview =>
      obtain ⟨hseries, rfl⟩ := Series.loads_of_loadAll hfinds hload
      cases (Viewer.run_gallery _ _).symm.trans hview
      exact ⟨some _, rfl,
        .of_delivers ⟨hcomparable, Series.exists_forall₂_loads_iff.mp ⟨_, hseries⟩⟩
          ⟨_, hseries, hdraw, Plot.length_frames_of_draw hdraw⟩⟩

/-- A call leaves the earlier figures as they are and adds one figure at the most. -/
theorem exists_shown (c : Call) (hdraws : c.Drawable solve) (figures : List Plot.Figure) :
    ∃ shown : Option Plot.Figure, c.after solve figures = figures ++ shown.toList ∧
      c.Shows solve shown := by
  cases c with
  | analysis files path settings =>
      obtain ⟨r, figures', hrun, hends⟩ :=
        Analysis.exists_ends solve (.ofFiles files) .gallery path settings figures
      rw [after, hrun]
      exact shows_of_analysis_ends hdraws hends
  | report files path settings =>
      obtain ⟨r, figures', hrun, hends⟩ :=
        Analysis.exists_ends solve (.ofFiles files) .gallery path settings figures
      rw [after, Analysis.run_runReport hrun]
      obtain ⟨shown, hshown, hshows⟩ := shows_of_analysis_ends hdraws hends
      exact ⟨shown, hshown, hshows.delivers, hshows.figure⟩
  | comparison files paths settings =>
      obtain ⟨r, figures', hrun, hends⟩ :=
        Comparison.exists_ends (.ofFiles files) .gallery paths settings figures
      rw [after, hrun]
      exact shows_of_comparison_ends hends

end Step

/-! ## Calls in sequence -/

/-- **What a gallery holds**: after any calls, made with any solver, it holds the
earlier figures and then, in the order of the calls, one figure for each call that
delivers. A call delivers by its settings, its files and one fit, and not by its
answer; the drawing of what it loads is taken to return. -/
theorem gallery_after_calls (calls : List Call) (hdraws : ∀ c ∈ calls, c.Drawable solve)
    (figures : List Plot.Figure) :
    ∃ shown : List (Option Plot.Figure), List.Forall₂ (Shows solve) calls shown ∧
      afterAll solve figures calls = figures ++ shown.reduceOption := by
  induction calls generalizing figures with
  | nil => exact ⟨[], .nil, (List.append_nil figures).symm⟩
  | cons c rest ih =>
      obtain ⟨hc, hrest⟩ := List.forall_mem_cons.mp hdraws
      obtain ⟨first, hfirst, hshows⟩ := exists_shown c hc figures
      obtain ⟨others, hothers, hafter⟩ := ih hrest (c.after solve figures)
      refine ⟨first :: others, .cons hshows hothers, ?_⟩
      calc afterAll solve figures (c :: rest) = afterAll solve (c.after solve figures) rest := rfl
        _ = figures ++ first.toList ++ others.reduceOption := by rw [hafter, hfirst]
        _ = figures ++ (first :: others).reduceOption := by
          rw [List.append_assoc]
          cases first <;> rfl

/-- Calls on a file of four runs: an analysis, one whose fits both fail, a report
that fails with one of its fits, and comparisons of the file with nothing and with
itself. -/
def fourRunsCalls : List Call :=
  let files : Path → Except FileError String := fun _ => .ok fourRuns
  [analysis files ⟨"runs.csv"⟩ { timeDegree := 0 }, analysis files ⟨"runs.csv"⟩ { timeDegree := 9 },
    report files ⟨"runs.csv"⟩ { timeDegree := 4, derivativeDegree := some 0 },
    comparison files [⟨"runs.csv"⟩] {}, comparison files [⟨"runs.csv"⟩, ⟨"runs.csv"⟩] {}]

theorem not_anySucceeded_fourRuns {source : Path} :
    ¬ (SeriesFits.ofSeries Polynomial.Rotations.solve (fourRunsSeries source)
      { timeDegree := 9 }).AnySucceeded := by
  rintro (⟨_, htime⟩ | ⟨_, hderivative⟩)
  · cases htime
  · cases hderivative

theorem drawable_fourRunsCalls : ∀ c ∈ fourRunsCalls, c.Drawable Polynomial.Rotations.solve := by
  intro c hc
  simp only [fourRunsCalls, List.mem_cons, List.not_mem_nil, or_false] at hc
  rcases hc with rfl | rfl | rfl | rfl | rfl
  · rintro - s hs -
    obtain rfl := loads_fourRuns_iff.mp hs
    exact Analysis.drawable_fourRuns (Or.inl rfl) rfl (by decide)
  · rintro - s hs hany
    obtain rfl := loads_fourRuns_iff.mp hs
    exact absurd hany not_anySucceeded_fourRuns
  · rintro - s hs -
    obtain rfl := loads_fourRuns_iff.mp hs
    exact Analysis.drawable_fourRuns (Or.inr rfl) rfl (by decide)
  · trivial
  · trivial

theorem delivers_fourRuns {settings : AnalysisSettings} (hvalid : settings.Valid)
    (h : settings.effectiveDerivativeDegree = 0) :
    Delivers Polynomial.Rotations.solve
      (analysis (fun _ => .ok fourRuns) ⟨"runs.csv"⟩ settings) :=
  ⟨hvalid, _, loads_fourRuns_iff.mpr rfl, SeriesFits.anySucceeded_fourRuns h⟩

theorem length_frames_fourRuns {settings : AnalysisSettings} {figure : Plot.Figure}
    (h : IsFigure solve figure (analysis (fun _ => .ok fourRuns) ⟨"runs.csv"⟩ settings)) :
    figure.frames.length = 2 := by
  obtain ⟨s, hs, -, hlength⟩ := h
  obtain rfl := loads_fourRuns_iff.mp hs
  exact hlength

/-- Three of the calls add a figure, two of them one of two panels. -/
theorem gallery_after_calls_four_runs :
    ∃ first second third, first.frames.length = 2 ∧ second.frames.length = 2 ∧
      third.frames.length = 1 ∧
      afterAll Polynomial.Rotations.solve [⟨750, 500, 16, []⟩] fourRunsCalls =
        [⟨750, 500, 16, []⟩, first, second, third] := by
  obtain ⟨shown, hshows, hafter⟩ :=
    gallery_after_calls fourRunsCalls drawable_fourRunsCalls [⟨750, 500, 16, []⟩]
  obtain _ | ⟨h₁, _ | ⟨h₂, _ | ⟨h₃, _ | ⟨h₄, _ | ⟨h₅, ⟨⟩⟩⟩⟩⟩⟩ := hshows
  rename_i shown₁ shown₂ shown₃ shown₄ shown₅
  have hvalid : ∀ settings : AnalysisSettings, settings.fault? = none → settings.Valid :=
    fun _ h => AnalysisSettings.fault?_eq_none_iff.mp h
  obtain ⟨first, rfl⟩ := Option.isSome_iff_exists.mp
    (h₁.delivers.mpr (delivers_fourRuns (hvalid _ (by decide +kernel)) rfl))
  obtain ⟨second, rfl⟩ := Option.isSome_iff_exists.mp
    (h₃.delivers.mpr (delivers_fourRuns (hvalid _ (by decide +kernel)) rfl))
  obtain ⟨third, rfl⟩ : ∃ third, shown₅ = some third := by
    refine Option.isSome_iff_exists.mp (h₅.delivers.mpr ⟨?_, fun path hpath => ?_⟩)
    · exact Comparison.fault?_eq_none_iff.mp (by decide)
    · obtain rfl : path = ⟨"runs.csv"⟩ := by simpa using hpath
      exact ⟨_, loads_fourRuns_iff.mpr rfl⟩
  have hfailed : shown₂ = none := by
    rw [← Option.not_isSome_iff_eq_none, h₂.delivers]
    rintro ⟨-, s, hs, hany⟩
    obtain rfl := loads_fourRuns_iff.mp hs
    exact not_anySucceeded_fourRuns hany
  have halone : shown₄ = none := by
    rw [← Option.not_isSome_iff_eq_none, h₄.delivers]
    exact fun hdelivers => absurd hdelivers.1.several (by decide)
  obtain ⟨-, -, -, hthird⟩ := h₅.figure third rfl
  refine ⟨first, second, third, length_frames_fourRuns (h₁.figure first rfl),
    length_frames_fourRuns (h₃.figure second rfl), hthird, ?_⟩
  rw [hafter, hfailed, halone]
  rfl

end Call

end GrowthCurve
