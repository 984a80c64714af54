import Mathlib
import GrowthCurve.Proofs.Plot.Inside

/-!
# Samples that are not shown

Axes, lines and legend of a panel are made from what its ceilings leave to be
seen. Hidden samples may come, go and change: figures that agree in all that is
shown are the same figure.
-/

namespace GrowthCurve.Plot

/-- There is a ceiling, and the ordinate is not below it. -/
def Hidden (ceiling : Option Float) (y : Float) : Prop :=
  ∃ c, ceiling = some c ∧ ¬ y < c

/-- The second pair of columns comes from the first by inserting, deleting and
changing samples that are hidden before and after. -/
inductive HiddenEdits (ceiling : Option Float) :
    List Float → List Float → List Float → List Float → Prop where
  | nil : HiddenEdits ceiling [] [] [] []
  | keep {xs ys xs' ys' : List Float} (x y : Float) (rest : HiddenEdits ceiling xs ys xs' ys') :
      HiddenEdits ceiling (x :: xs) (y :: ys) (x :: xs') (y :: ys')
  | insert {xs ys xs' ys' : List Float} (x' : Float) {y' : Float} (hidden : Hidden ceiling y')
      (rest : HiddenEdits ceiling xs ys xs' ys') :
      HiddenEdits ceiling xs ys (x' :: xs') (y' :: ys')
  | delete {xs ys xs' ys' : List Float} (x : Float) {y : Float} (hidden : Hidden ceiling y)
      (rest : HiddenEdits ceiling xs ys xs' ys') :
      HiddenEdits ceiling (x :: xs) (y :: ys) xs' ys'
  | change {xs ys xs' ys' : List Float} (x x' : Float) {y y' : Float} (hidden : Hidden ceiling y)
      (hidden' : Hidden ceiling y') (rest : HiddenEdits ceiling xs ys xs' ys') :
      HiddenEdits ceiling (x :: xs) (y :: ys) (x' :: xs') (y' :: ys')

/-- Curves in one style, under one label and one ceiling, that differ in hidden
samples only. -/
structure Curve.SameShown (c c' : Curve Float) : Prop where
  line : c.line = c'.line
  colour : c.colour = c'.colour
  label : c.label = c'.label
  ceiling : c.ceiling = c'.ceiling
  samples : HiddenEdits c.ceiling c.xs c.ys c'.xs c'.ys

/-- Panels that differ in hidden samples of their curves only. -/
structure Panel.SameShown (p p' : Panel Float) : Prop where
  xLabel : p.xLabel = p'.xLabel
  yLabel : p.yLabel = p'.yLabel
  title : p.title = p'.title
  legend : p.legend = p'.legend
  curves : List.Forall₂ Curve.SameShown p.curves p'.curves

/-- Two panels with the same axes, the same lines curve by curve, and the same
legend. -/
structure Panel.SameTraces (p p' : Panel Float) : Prop where
  axes : axisRanges p.visible = axisRanges p'.visible
  lines : ∀ fuel, p.curves.map (Curve.strokes p.pattern fuel) =
    p'.curves.map (Curve.strokes p'.pattern fuel)
  legend : p.legendEntries? = p'.legendEntries?

/-! ## Shown samples -/

section Samples

variable {ceiling : Option Float} {xs ys xs' ys' : List Float} {x y : Float}

theorem isShown_eq_false_iff : isShown ceiling y = false ↔ Hidden ceiling y := by
  unfold isShown Hidden
  cases ceiling with
  | none => simp
  | some c =>
      have hless : Scalar.less y c = true ↔ y < c := Iff.rfl
      simp [← hless]

/-- NaN is below no ceiling. -/
theorem hidden_of_isNaN {c : Float} (h : y.isNaN = true) : Hidden (some c) y := by
  refine ⟨c, rfl, ?_⟩
  intro hlt
  rw [(Binary.lt_iff.mp hlt).1] at h
  cases h

theorem visiblePoints_cons_of_hidden (h : Hidden ceiling y) :
    visiblePoints (x :: xs) (y :: ys) ceiling = visiblePoints xs ys ceiling := by
  unfold visiblePoints
  rw [List.zip_cons_cons, List.filter_cons_of_neg]
  simpa using isShown_eq_false_iff.mpr h

theorem visiblePoints_cons_of_not_hidden (h : ¬ Hidden ceiling y) :
    visiblePoints (x :: xs) (y :: ys) ceiling = (x, y) :: visiblePoints xs ys ceiling := by
  unfold visiblePoints
  rw [List.zip_cons_cons, List.filter_cons_of_pos]
  simpa using isShown_eq_false_iff.not.mpr h

/-- A sample on both sides makes no difference, whether it is shown or not. -/
theorem visiblePoints_cons_congr (x y : Float)
    (h : visiblePoints xs ys ceiling = visiblePoints xs' ys' ceiling) :
    visiblePoints (x :: xs) (y :: ys) ceiling = visiblePoints (x :: xs') (y :: ys') ceiling := by
  by_cases hy : Hidden ceiling y
  · rw [visiblePoints_cons_of_hidden hy, visiblePoints_cons_of_hidden hy, h]
  · rw [visiblePoints_cons_of_not_hidden hy, visiblePoints_cons_of_not_hidden hy, h]

theorem HiddenEdits.visiblePoints_eq (h : HiddenEdits ceiling xs ys xs' ys') :
    visiblePoints xs ys ceiling = visiblePoints xs' ys' ceiling := by
  induction h with
  | nil => rfl
  | keep x y _ ih => exact visiblePoints_cons_congr x y ih
  | insert x' hidden _ ih => rw [ih, visiblePoints_cons_of_hidden hidden]
  | delete x hidden _ ih => rw [visiblePoints_cons_of_hidden hidden, ih]
  | change x x' hidden hidden' _ ih =>
      rw [visiblePoints_cons_of_hidden hidden, visiblePoints_cons_of_hidden hidden', ih]

theorem HiddenEdits.length_eq (h : HiddenEdits ceiling xs ys xs' ys') :
    xs.length = ys.length ∧ xs'.length = ys'.length := by
  induction h with
  | nil => exact ⟨rfl, rfl⟩
  | keep _ _ _ ih | change _ _ _ _ _ ih =>
      exact ⟨congrArg Nat.succ ih.1, congrArg Nat.succ ih.2⟩
  | insert _ _ _ ih => exact ⟨ih.1, congrArg Nat.succ ih.2⟩
  | delete _ _ _ ih => exact ⟨congrArg Nat.succ ih.1, ih.2⟩

/-- What is shown are the samples that are not hidden, all of them and in their order. -/
theorem sublist_visible_iff {c : Curve Float} {points : List (Float × Float)} :
    points.Sublist c.visible ↔
      points.Sublist (c.xs.zip c.ys) ∧ ∀ q ∈ points, ¬ Hidden c.ceiling q.2 := by
  unfold Curve.visible visiblePoints
  constructor
  · intro h
    refine ⟨h.trans List.filter_sublist, ?_⟩
    intro q hq
    rw [← isShown_eq_false_iff, (List.mem_filter.mp (h.subset hq)).2]
    exact Bool.noConfusion
  · rintro ⟨h, hshown⟩
    have hkept : points.filter (fun q => isShown c.ceiling q.2) = points := by
      rw [List.filter_eq_self]
      intro q hq
      simpa using isShown_eq_false_iff.not.mpr (hshown q hq)
    rw [← hkept]
    exact h.filter _

end Samples

/-! ## Curves and panels -/

section Panels

variable {c c' : Curve Float} {p p' : Panel Float}

theorem Curve.SameShown.visible_eq (h : c.SameShown c') : c.visible = c'.visible := by
  unfold Curve.visible
  rw [← h.ceiling]
  exact h.samples.visiblePoints_eq

theorem Curve.SameShown.strokes_eq (h : c.SameShown c') (d : DashPattern Float) (fuel : ℕ) :
    c.strokes d fuel = c'.strokes d fuel := by
  unfold Curve.strokes Curve.lines
  rw [h.line, h.colour, h.visible_eq]

theorem Curve.SameShown.legendEntry_eq (h : c.SameShown c') : c.legendEntry = c'.legendEntry := by
  unfold Curve.legendEntry
  rw [h.colour, h.label]

/-- What is the same for any two curves of the panels is the same for all of them. -/
theorem Panel.SameShown.map_curves {β : Type} {f : Curve Float → β} (h : p.SameShown p')
    (hf : ∀ c c', c.SameShown c' → f c = f c') : p.curves.map f = p'.curves.map f := by
  refine List.forall₂_eq_eq_eq ▸ ?_
  exact List.forall₂_map_left_iff.mpr (List.forall₂_map_right_iff.mpr (h.curves.imp hf))

theorem Panel.SameShown.visible_eq (h : p.SameShown p') : p.visible = p'.visible := by
  unfold Panel.visible
  rw [List.flatMap_def, List.flatMap_def, h.map_curves fun _ _ => Curve.SameShown.visible_eq]

theorem Panel.SameShown.legendEntries?_eq (h : p.SameShown p') :
    p.legendEntries? = p'.legendEntries? := by
  have hentries : p.curves.map Curve.legendEntry = p'.curves.map Curve.legendEntry :=
    h.map_curves fun _ _ => Curve.SameShown.legendEntry_eq
  have hempty : p.curves.isEmpty = p'.curves.isEmpty := by
    rw [← List.isEmpty_map (f := Curve.legendEntry), hentries, List.isEmpty_map]
  unfold Panel.legendEntries?
  rw [h.legend, hentries, hempty]

theorem Panel.SameShown.sameTraces (h : p.SameShown p') : p.SameTraces p' := by
  refine ⟨by rw [h.visible_eq], ?_, h.legendEntries?_eq⟩
  intro fuel
  unfold Panel.pattern
  rw [h.visible_eq]
  exact h.map_curves fun _ _ hc => hc.strokes_eq _ fuel

theorem allStrokes_eq_of_sameShown {d : DashPattern Float} {fuel : ℕ}
    {curves curves' : List (Curve Float)} (h : List.Forall₂ Curve.SameShown curves curves') :
    allStrokes d fuel curves = allStrokes d fuel curves' := by
  induction h with
  | nil => rfl
  | cons hc _ ih =>
      unfold allStrokes
      rw [hc.strokes_eq, ih]

theorem Panel.SameShown.sketch_eq (h : p.SameShown p') (fuel : ℕ) :
    p.sketch fuel = p'.sketch fuel := by
  unfold Panel.sketch
  rw [h.visible_eq]
  dsimp only
  rw [allStrokes_eq_of_sameShown h.curves]

theorem Panel.SameShown.frame_eq (h : p.SameShown p') (size : FigureSize) (width : UInt32)
    (fuel n k : ℕ) : p.frame size width fuel n k = p'.frame size width fuel n k := by
  unfold Panel.frame Panel.headHeight Panel.frameOf
  rw [h.sketch_eq, h.title, h.xLabel, h.yLabel, h.legendEntries?_eq]

/-- What related members have, all members have. -/
theorem forall_mem_of_forall₂ {β : Type} {r : β → β → Prop} {q : β → Prop} {l l' : List β}
    (h : List.Forall₂ r l l') (hq : ∀ a a', r a a' → q a ∧ q a') :
    (∀ a ∈ l, q a) ∧ ∀ a ∈ l', q a := by
  induction h with
  | nil => exact ⟨List.forall_mem_nil q, List.forall_mem_nil q⟩
  | cons hr _ ih =>
      obtain ⟨hleft, hright⟩ := hq _ _ hr
      exact ⟨List.forall_mem_cons.mpr ⟨hleft, ih.1⟩, List.forall_mem_cons.mpr ⟨hright, ih.2⟩⟩

theorem Panel.SameShown.paired (h : p.SameShown p') : p.Paired ∧ p'.Paired :=
  forall_mem_of_forall₂ h.curves fun _ _ hc => hc.samples.length_eq

end Panels

/-! ## Figures -/

section Figures

variable {panels panels' : List (Panel Float)}

theorem panelsFault?_eq_of_sameShown (h : List.Forall₂ Panel.SameShown panels panels') :
    panelsFault? panels = panelsFault? panels' := by
  obtain ⟨hpaired, hpaired'⟩ := forall_mem_of_forall₂ h fun _ _ hp => hp.paired
  cases h with
  | nil => rfl
  | cons _ _ =>
      rw [panelsFault?_eq_none_iff.mpr ⟨List.cons_ne_nil _ _, hpaired⟩,
        panelsFault?_eq_none_iff.mpr ⟨List.cons_ne_nil _ _, hpaired'⟩]

theorem frames_eq_of_sameShown {size : FigureSize} {width : UInt32} {fuel n k : ℕ}
    (h : List.Forall₂ Panel.SameShown panels panels') :
    frames size width fuel n k panels = frames size width fuel n k panels' := by
  induction h generalizing k with
  | nil => rfl
  | cons hp _ ih =>
      unfold frames
      rw [hp.frame_eq, ih]

theorem drawWith_eq_of_sameShown (h : List.Forall₂ Panel.SameShown panels panels') (fuel : ℕ)
    (size : FigureSize) : drawWith fuel panels size = drawWith fuel panels' size := by
  unfold drawWith layOut
  simp only [panelsFault?_eq_of_sameShown h, h.length_eq, frames_eq_of_sameShown h]

/-- **Hidden samples leave no trace**: panels that differ in hidden samples only
have the same axes, lines and legends and come to the same figure, however many
cuts its dashes may take. They do come to a figure if they are accepted, their
sizes fit and nothing that is dashed is infinite or NaN. What is shown of a curve
are all samples that are not hidden, in their order. -/
theorem hidden_samples_leave_no_trace (h : List.Forall₂ Panel.SameShown panels panels')
    (size : FigureSize) :
    List.Forall₂ Panel.SameTraces panels panels' ∧
    draw panels size = draw panels' size ∧
    (∀ fuel, drawWith fuel panels size = drawWith fuel panels' size) ∧
    (panelsFault? panels = none → SizesFit size panels → (∀ p ∈ panels, p.FiniteDashes) →
      ∃ figure, draw panels size = .ok figure ∧ draw panels' size = .ok figure) ∧
    ∀ (c : Curve Float) (points : List (Float × Float)), points.Sublist c.visible ↔
      points.Sublist (c.xs.zip c.ys) ∧ ∀ q ∈ points, ¬ Hidden c.ceiling q.2 := by
  have hdraw : ∀ fuel, drawWith fuel panels size = drawWith fuel panels' size :=
    fun fuel => drawWith_eq_of_sameShown h fuel size
  refine ⟨h.imp fun _ _ hp => hp.sameTraces, hdraw cutLimit, hdraw, ?_, ?_⟩
  · intro hfault hfit hfinite
    obtain ⟨figure, hfigure⟩ := exists_draw hfault hfit fun p hp => (hfinite p hp).dashesEnd
    exact ⟨figure, hfigure, (hdraw cutLimit).symm.trans hfigure⟩
  · exact fun _ _ => sublist_visible_iff

/-- Measured values under a ceiling, and a fit of two of them. -/
def clippedPanel (xs ys : List Float) : Panel Float :=
  ⟨"n", "dT/dn", none, true, [⟨xs, ys, .solid, Colour.blueTone, "measured", some 5⟩,
    ⟨[1, 2], [1, 3], .dashed, Colour.redTone, "fit", none⟩]⟩

theorem clippedPanel_sameShown {xs ys xs' ys' : List Float}
    (h : HiddenEdits (some 5) xs ys xs' ys') :
    (clippedPanel xs ys).SameShown (clippedPanel xs' ys') := by
  have hfit : HiddenEdits none [1, 2] [1, 3] [1, 2] [1, 3] := .keep 1 1 (.keep 2 3 .nil)
  exact ⟨rfl, rfl, rfl, rfl, .cons ⟨rfl, rfl, rfl, rfl, h⟩ (.cons ⟨rfl, rfl, rfl, rfl, hfit⟩ .nil)⟩

/-- One panel has a NaN in between and a value at the ceiling at the end, the
other one an outlier instead of the NaN. -/
theorem hidden_samples_leave_no_trace_outliers :
    List.Forall₂ Panel.SameShown [clippedPanel [1, 7, 2, 3] [1, 0 / 0, 3, 5]]
      [clippedPanel [1, 9, 2] [1, 1000, 3]] ∧
    ∃ figure, draw [clippedPanel [1, 7, 2, 3] [1, 0 / 0, 3, 5]] {} = .ok figure ∧
      draw [clippedPanel [1, 9, 2] [1, 1000, 3]] {} = .ok figure := by
  have hmeasured : HiddenEdits (some 5) [1, 7, 2, 3] [1, 0 / 0, 3, 5] [1, 9, 2] [1, 1000, 3] :=
    .keep 1 1 (.change 7 9 (hidden_of_isNaN rfl) ⟨5, rfl, by decide⟩
      (.keep 2 3 (.delete 3 ⟨5, rfl, by decide⟩ .nil)))
  have hsame : List.Forall₂ Panel.SameShown [clippedPanel [1, 7, 2, 3] [1, 0 / 0, 3, 5]]
      [clippedPanel [1, 9, 2] [1, 1000, 3]] := .cons (clippedPanel_sameShown hmeasured) .nil
  have hfault : panelsFault? [clippedPanel [1, 7, 2, 3] [1, 0 / 0, 3, 5]] = none := by decide
  have hfinite : ∀ p ∈ [clippedPanel [1, 7, 2, 3] [1, 0 / 0, 3, 5]], p.FiniteDashes := by
    unfold Panel.FiniteDashes
    decide
  obtain ⟨-, -, -, hfigure, -⟩ := hidden_samples_leave_no_trace hsame {}
  exact ⟨hsame, hfigure hfault (sizesFit_singleton {} rfl) hfinite⟩

end Figures

end GrowthCurve.Plot
