import Mathlib
import GrowthCurve.Proofs.Analysis.Panels
import GrowthCurve.Proofs.Sample.Columns

/-!
# What derivatives have an influence on

The first derivative of a file has none, and all of them together only have one
on their own fit and their own panel. A file without the third column is analysed
as the file with it, up to that fit and that panel.
-/

namespace GrowthCurve.Analysis

/-- An analysis does the same with both texts, whatever its solver and its viewer do. -/
def SameRuns (path : Path) (text text' : String) : Prop :=
  ∀ {σ : Type} (read read' : FileReader (StateM σ)),
    (∀ st, (read path).run.run st = (.ok text, st)) →
    (∀ st, (read' path).run.run st = (.ok text', st)) →
    ∀ (solve : Polynomial.Solver Float) (viewer : Viewer (StateM σ))
      (settings : AnalysisSettings),
      run solve read viewer path settings = run solve read' viewer path settings ∧
      runReport solve read viewer path settings = runReport solve read' viewer path settings

/-- The second series has the sizes and times of the first one and no derivatives. Its
time is fitted alike, and its panel is the first one of the other. -/
structure TimesOnly (s s' : Series) : Prop where
  sizes : s'.inputSizes = s.inputSizes
  times : s'.times = s.times
  samples : s'.size = s.size
  derivatives : s'.derivatives = none
  timeFit : ∀ solve settings,
    (SeriesFits.ofSeries solve s' settings).time = (SeriesFits.ofSeries solve s settings).time
  derivativeFit : ∀ solve settings, (SeriesFits.ofSeries solve s' settings).derivative = none
  panels : ∀ solve settings, ∃ p, panels s' (.ofSeries solve s' settings) settings = [p] ∧
    (panels s (.ofSeries solve s settings) settings).head? = some p

variable {path : Path} {text text' : String} {s : Series}

theorem sameRuns_of_read_eq (h : Series.read path text = Series.read path text') :
    SameRuns path text text' := by
  intro σ read read' hread hread' solve viewer settings
  have hload : Series.load read path = Series.load read' path := by
    funext st
    exact (Series.run_load_of_text (hread st)).trans
      (h ▸ (Series.run_load_of_text (hread' st)).symm)
  have hrun : run solve read viewer path settings = run solve read' viewer path settings := by
    unfold run
    rw [hload]
  refine ⟨hrun, ?_⟩
  unfold runReport
  rw [hrun]

theorem timesOnly_withoutDerivatives (s : Series) :
    TimesOnly s { s with derivatives := none } :=
  ⟨rfl, rfl, rfl, rfl, fun _ _ => rfl, fun _ _ => rfl, fun _ _ => ⟨_, rfl, rfl⟩⟩

/-- **Derivatives stay in their column**: whatever readable number stands in the third
field of the first record, the series and all that is made from it are the same,
with any solver. Without the third fields the file is read as well; what is lost is
the fit of the derivatives and their panel. -/
theorem derivatives_stay_in_their_column (hread : Series.read path text = .ok s)
    (hderivatives : s.derivatives.isSome) :
    (∀ core d, Decimal.readReal core = .ok d →
      (∃ text' : String, Series.FirstReplaced core text.toList text'.toList) ∧
      ∀ text' : String, Series.FirstReplaced core text.toList text'.toList →
        Series.read path text' = .ok s ∧ SameRuns path text text') ∧
    (∃ text' : String, Series.Narrowed text.toList text'.toList) ∧
    ∀ text' : String, Series.Narrowed text.toList text'.toList →
      ∃ s', Series.read path text' = .ok s' ∧ TimesOnly s s' := by
  obtain ⟨hne, hlength⟩ := Series.length_fields_of_derivatives hread hderivatives
  refine ⟨?_, ?_, ?_⟩
  · intro core d hcore
    constructor
    · obtain ⟨cs, hcs⟩ := Series.exists_firstReplaced core hne hlength
      exact ⟨String.ofList cs, by rwa [String.toList_ofList]⟩
    · intro text' htext'
      have hread' := htext'.read_eq hread hcore
      exact ⟨hread', sameRuns_of_read_eq (hread.trans hread'.symm)⟩
  · obtain ⟨cs, hcs⟩ := Series.exists_narrowed hlength
    exact ⟨String.ofList cs, by rwa [String.toList_ofList]⟩
  · intro text' htext'
    exact ⟨_, htext'.read_eq hread, timesOnly_withoutDerivatives s⟩

/-- A first derivative out of all proportion, another one in its place, and the
file without both derivatives. -/
theorem derivatives_stay_in_their_column_two_records :
    let text := "0,0.5,999\n1, 1.5 ,2 \r\n"
    let s : Series := ⟨⟨"b.csv"⟩, [0, 1], [0.5, 1.5], some [0, 2]⟩
    Series.read ⟨"b.csv"⟩ text = .ok s ∧ s.derivatives.isSome ∧
      Series.read ⟨"b.csv"⟩ "0,0.5, -1e3\n1, 1.5 ,2 \r\n" = .ok s ∧
      ∃ s', Series.read ⟨"b.csv"⟩ "0,0.5\n1, 1.5  \r\n" = .ok s' ∧ TimesOnly s s' := by
  intro text s
  have hread : Series.read ⟨"b.csv"⟩ text = .ok s := by decide +kernel
  have hfield : ∀ cs : List Char, ',' ∉ cs ∧ '\n' ∉ cs → Record.IsField cs := fun _ h => ⟨h.1, h.2⟩
  have hsize := hfield ['0'] (by decide)
  have htime := hfield ['0', '.', '5'] (by decide)
  have hderivative := hfield ['9', '9', '9'] (by decide)
  have hpadded : Text.Padded ['-', '1', 'e', '3'] [' ', '-', '1', 'e', '3'] :=
    .intro [' '] [] (by decide) (by decide)
  have hreplaced : Series.FirstReplaced ['-', '1', 'e', '3'] text.toList
      "0,0.5, -1e3\n1, 1.5 ,2 \r\n".toList := by
    have h := Series.FirstReplaced.intro hsize htime hderivative hpadded
      (Or.inr ⟨"1, 1.5 ,2 \r\n".toList, rfl⟩)
    simpa [text, Record.triple] using h
  have hnarrowed : Series.Narrowed text.toList "0,0.5\n1, 1.5  \r\n".toList := by
    have hfirst : Series.NarrowedLine (Record.triple ['0'] ['0', '.', '5'] ['9', '9', '9'])
        "0,0.5".toList := .intro hsize htime hderivative (show Text.Padding [] by decide)
    have hsecond : Series.NarrowedLine
        (Record.triple ['1'] [' ', '1', '.', '5', ' '] ['2', ' ', '\r']) "1, 1.5  \r".toList :=
      .intro (hfield _ (by decide)) (hfield _ (by decide)) (hfield _ (by decide))
        (show Text.Padding [' ', '\r'] by decide)
    have h := Series.Narrowed.ended hfirst (.ended hsecond (@Series.Narrowed.blank [] (by simp)))
    simpa [text, Record.triple] using h
  have hnumber : Decimal.readReal ['-', '1', 'e', '3'] = .ok (-1000) := by decide +kernel
  obtain ⟨hfirst, -, hall⟩ := derivatives_stay_in_their_column hread rfl
  exact ⟨hread, rfl, ((hfirst _ _ hnumber).2 _ hreplaced).1, hall _ hnarrowed⟩

end GrowthCurve.Analysis
