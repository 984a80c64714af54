import Mathlib
import GrowthCurve.Plot.Figure
import GrowthCurve.Proofs.Outcome

/-!
# When panels are drawn

Panels are drawn if all curves have as many ordinates as abscissae, the sizes that
are computed are words, and the dashes of the dashed curves come to an end. The
figure then has one frame a panel. Otherwise the drawing is refused or it halts.
-/

namespace GrowthCurve.Plot

/-! ## Panels without fault -/

section Faults

variable {α : Type}

/-- Every curve has as many ordinates as abscissae. -/
def Panel.Paired (p : Panel α) : Prop :=
  ∀ c ∈ p.curves, c.xs.length = c.ys.length

theorem Panel.fault?_eq_none_iff {p : Panel α} : p.fault? = none ↔ p.Paired := by
  unfold Panel.fault? Panel.Paired
  rw [Option.map_eq_none_iff, List.find?_eq_none]
  simp

theorem panelsFault?_eq_none_iff {panels : List (Panel α)} :
    panelsFault? panels = none ↔ panels ≠ [] ∧ ∀ p ∈ panels, p.Paired := by
  unfold panelsFault?
  cases panels with
  | nil => simp
  | cons p rest =>
      rw [List.isEmpty_cons, if_neg Bool.false_ne_true, List.findSome?_eq_none_iff]
      simp only [Panel.fault?_eq_none_iff, ne_eq, reduceCtorEq, not_false_eq_true, true_and]

end Faults

/-! ## Dashes that come to an end -/

section Dashes

variable {α : Type} [Scalar α] {fuel : ℕ}

/-- The dashed curves are cut into pieces with so many cuts for each of their points. -/
def Panel.DashesEnd (fuel : ℕ) (p : Panel α) : Prop :=
  ∀ c ∈ p.curves, c.line = .dashed →
    (dashPieces (axisDashes (axisRanges p.visible).1 (axisRanges p.visible).2)
      (fuel * c.visible.length) c.visible).isSome

theorem Curve.strokes_isSome_iff {d : DashPattern α} {c : Curve α} :
    (c.strokes d fuel).isSome ↔
      (c.line = .dashed → (dashPieces d (fuel * c.visible.length) c.visible).isSome) := by
  unfold Curve.strokes Curve.lines
  cases c.line with
  | solid => simp
  | dashed => simp

theorem allStrokes_isSome_iff {d : DashPattern α} {curves : List (Curve α)} :
    (allStrokes d fuel curves).isSome ↔ ∀ c ∈ curves, (c.strokes d fuel).isSome := by
  induction curves with
  | nil => simp [allStrokes]
  | cons c rest ih =>
      rw [List.forall_mem_cons, ← ih, allStrokes]
      cases c.strokes d fuel <;> cases allStrokes d fuel rest <;> simp

/-- Nothing but a dashed curve keeps a panel from being sketched. -/
theorem Panel.sketch_isSome_iff {p : Panel α} :
    (p.sketch fuel).isSome ↔ p.DashesEnd fuel := by
  unfold Panel.sketch Panel.DashesEnd
  rw [Option.isSome_map, allStrokes_isSome_iff]
  simp only [Curve.strokes_isSome_iff]

theorem Panel.dashesEnd_of_solid {p : Panel α} (h : ∀ c ∈ p.curves, c.line = .solid) :
    p.DashesEnd fuel := by
  intro c hc hdashed
  rw [h c hc] at hdashed
  cases hdashed

/-- Nothing is cut on a curve of one point. -/
theorem dashPieces_isSome_of_length_le_one {d : DashPattern α} {points : List (α × α)}
    (h : points.length ≤ 1) : (dashPieces d fuel points).isSome := by
  unfold dashPieces
  rw [Option.isSome_map]
  rcases points with _ | ⟨a, _ | ⟨b, rest⟩⟩
  · simp [Pen.follow]
  · simp [Pen.follow]
  · simp at h

end Dashes

/-! ## Sizes that are words -/

section Sizes

variable {size : FigureSize} {panels : List (Panel Float)}

theorem word_eq_ok_iff {n : ℕ} {w : UInt32} : word n = .ok w ↔ w.toNat = n := by
  unfold word
  split_ifs with hn
  · rw [Except.ok.injEq]
    constructor
    · rintro rfl
      exact UInt32.toNat_ofNat_of_lt hn
    · rintro rfl
      exact UInt32.ofNat_toNat
  · refine iff_of_false nofun ?_
    rintro rfl
    exact hn w.toNat_lt

theorem exists_word_iff {n : ℕ} : (∃ w, word n = .ok w) ↔ n < 2 ^ 32 := by
  simp only [word_eq_ok_iff]
  constructor
  · rintro ⟨w, rfl⟩
    exact w.toNat_lt
  · exact fun hn => ⟨UInt32.ofNat n, UInt32.toNat_ofNat_of_lt hn⟩

theorem word_eq_error_iff {n : ℕ} {halt : Halt} :
    word n = .error halt ↔ halt = .overflow ∧ 2 ^ 32 ≤ n := by
  unfold word
  split_ifs with hn
  · exact iff_of_false nofun fun h => absurd hn (not_lt.mpr h.2)
  · have hlarge : 2 ^ 32 ≤ n := not_lt.mp hn
    rw [Except.error.injEq, and_iff_left hlarge, eq_comm]

/-- The sizes that the drawing of some panels computes are words: the width of all
of them, whose number is counted in a word, and the size of their titles. -/
structure SizesFit (size : FigureSize) (panels : List (Panel Float)) : Prop where
  width : size.panelWidth.toNat * (panels.length % 2 ^ 32) < 2 ^ 32
  titles : ∀ p ∈ panels, p.title ≠ none → size.fontSize.toNat + 4 < 2 ^ 32

theorem exists_figureWidth_iff {n : ℕ} :
    (∃ w, figureWidth size n = .ok w) ↔ size.panelWidth.toNat * (n % 2 ^ 32) < 2 ^ 32 := by
  unfold figureWidth
  rw [exists_word_iff, UInt32.toNat_ofNat']

theorem exists_headHeight_iff {p : Panel Float} : (∃ h, p.headHeight size = .ok h) ↔
    (p.title ≠ none → size.fontSize.toNat + 4 < 2 ^ 32) := by
  unfold Panel.headHeight titleFont
  cases p.title with
  | none => simp
  | some title =>
      rw [← exists_word_iff]
      simp [Except.map_eq_ok_iff]

end Sizes

/-! ## Figures -/

variable {size : FigureSize} {width : UInt32} {fuel n k : ℕ} {panels : List (Panel Float)}
  {p : Panel Float} {halt : Halt}

theorem Panel.frame_eq_ok_iff {f : Frame} : p.frame size width fuel n k = .ok f ↔
    ∃ head s, p.headHeight size = .ok head ∧ p.sketch fuel = some s ∧
      f = p.frameOf (plotArea size width n k head) s := by
  unfold Panel.frame
  rw [Except.bind_eq_ok_iff]
  refine exists_congr fun head => ?_
  cases p.sketch fuel with
  | none => simp [throw, throwThe, MonadExceptOf.throw]
  | some s => simp [pure, Except.pure, eq_comm]

theorem exists_frame_iff : (∃ f, p.frame size width fuel n k = .ok f) ↔
    (p.title ≠ none → size.fontSize.toNat + 4 < 2 ^ 32) ∧ p.DashesEnd fuel := by
  rw [← exists_headHeight_iff, ← Panel.sketch_isSome_iff, Option.isSome_iff_exists]
  constructor
  · rintro ⟨f, hf⟩
    obtain ⟨head, s, hhead, hs, -⟩ := Panel.frame_eq_ok_iff.mp hf
    exact ⟨⟨head, hhead⟩, s, hs⟩
  · rintro ⟨⟨head, hhead⟩, s, hs⟩
    exact ⟨_, Panel.frame_eq_ok_iff.mpr ⟨head, s, hhead, hs, rfl⟩⟩

/-- What makes the drawing of accepted panels halt. -/
inductive Halts (size : FigureSize) (fuel : ℕ) (panels : List (Panel Float)) : Halt → Prop where
  | overflow (large : ¬ SizesFit size panels) : Halts size fuel panels .overflow
  | endlessDashes {p : Panel Float} (mem : p ∈ panels) (endless : ¬ p.DashesEnd fuel) :
      Halts size fuel panels .endlessDashes

theorem halts_of_frame (hp : p ∈ panels) (h : p.frame size width fuel n k = .error halt) :
    Halts size fuel panels halt := by
  unfold Panel.frame at h
  rcases Except.bind_eq_error_iff.mp h with hhead | ⟨head, -, hsketch⟩
  · have hlarge : ¬ ∃ h, p.headHeight size = .ok h := by
      rw [hhead]
      exact nofun
    rw [exists_headHeight_iff] at hlarge
    obtain rfl : halt = .overflow := by
      unfold Panel.headHeight titleFont at hhead
      cases htitle : p.title with
      | none =>
          rw [htitle] at hhead
          cases hhead
      | some title =>
          rw [htitle] at hhead
          exact (word_eq_error_iff.mp (Except.map_eq_error_iff.mp hhead)).1
    exact .overflow fun hfit => hlarge (hfit.titles p hp)
  · cases hs : p.sketch fuel with
    | none =>
        rw [hs] at hsketch
        obtain rfl := Except.error.inj hsketch
        refine .endlessDashes hp ?_
        rw [← Panel.sketch_isSome_iff, hs]
        exact Bool.false_ne_true
    | some s =>
        rw [hs] at hsketch
        cases hsketch

/-- Frames are drawn exactly if the titles fit and the dashes of all panels end. -/
theorem exists_frames_iff : (∃ fs, frames size width fuel n k panels = .ok fs) ↔
    ∀ p ∈ panels, (p.title ≠ none → size.fontSize.toNat + 4 < 2 ^ 32) ∧ p.DashesEnd fuel := by
  induction panels generalizing k with
  | nil => exact iff_of_true ⟨[], rfl⟩ nofun
  | cons p rest ih =>
      have hframe : (∃ f, p.frame size width fuel n k = .ok f) ↔ _ := exists_frame_iff
      rw [List.forall_mem_cons, ← hframe, ← ih (k := k + 1), frames]
      constructor
      · rintro ⟨fs, hfs⟩
        obtain ⟨f, hf, hrest⟩ := Except.bind_eq_ok_iff.mp hfs
        obtain ⟨others, hothers, -⟩ := Except.bind_eq_ok_iff.mp hrest
        exact ⟨⟨f, hf⟩, others, hothers⟩
      · rintro ⟨⟨f, hf⟩, others, hothers⟩
        exact ⟨f :: others, Except.bind_eq_ok_iff.mpr
          ⟨f, hf, Except.bind_eq_ok_iff.mpr ⟨others, hothers, rfl⟩⟩⟩

theorem halts_of_frames {all : List (Panel Float)} (hsub : ∀ p ∈ panels, p ∈ all)
    (h : frames size width fuel n k panels = .error halt) : Halts size fuel all halt := by
  induction panels generalizing k with
  | nil => cases h
  | cons p rest ih =>
      obtain ⟨hp, hrest⟩ := List.forall_mem_cons.mp hsub
      rw [frames, Except.bind_eq_error_iff] at h
      rcases h with hframe | ⟨f, -, hothers⟩
      · exact halts_of_frame hp hframe
      · rcases Except.bind_eq_error_iff.mp hothers with hothers | ⟨others, -, hdone⟩
        · exact ih hrest hothers
        · cases hdone

/-- A figure is laid out of the width of its panels and of their frames. -/
theorem layOut_eq_ok_iff {figure : Figure} : layOut fuel panels size = .ok figure ↔
    ∃ width fs, figureWidth size panels.length = .ok width ∧
      frames size width fuel panels.length 0 panels = .ok fs ∧
      figure = ⟨width, size.panelHeight, size.fontSize, fs⟩ := by
  unfold layOut
  simp only [Except.bind_eq_ok_iff, pure, Except.pure, Except.ok.injEq, eq_comm (b := figure),
    exists_and_left]

theorem drawWith_eq_ok_iff {figure : Figure} : drawWith fuel panels size = .ok figure ↔
    panelsFault? panels = none ∧ layOut fuel panels size = .ok figure := by
  unfold drawWith
  cases panelsFault? panels with
  | some e => simp
  | none => simp [Except.mapError_eq_ok_iff]

/-- Accepted panels are drawn exactly if the sizes fit and all dashes end. -/
theorem exists_drawWith_iff (hfault : panelsFault? panels = none) (size : FigureSize) :
    (∃ figure, drawWith fuel panels size = .ok figure) ↔
      SizesFit size panels ∧ ∀ p ∈ panels, p.DashesEnd fuel := by
  simp only [drawWith_eq_ok_iff, hfault, true_and, layOut_eq_ok_iff]
  constructor
  · rintro ⟨figure, width, fs, hwidth, hfs, -⟩
    have hframes := exists_frames_iff.mp ⟨fs, hfs⟩
    exact ⟨⟨exists_figureWidth_iff.mp ⟨width, hwidth⟩, fun p hp => (hframes p hp).1⟩,
      fun p hp => (hframes p hp).2⟩
  · rintro ⟨hfit, hends⟩
    obtain ⟨width, hwidth⟩ := exists_figureWidth_iff.mpr hfit.width
    obtain ⟨fs, hfs⟩ : ∃ fs, frames size width fuel panels.length 0 panels = .ok fs :=
      exists_frames_iff.mpr fun p hp => ⟨hfit.titles p hp, hends p hp⟩
    exact ⟨_, width, fs, hwidth, hfs, rfl⟩

/-- Accepted panels that are not drawn make the drawing halt. -/
theorem halts_of_drawWith {e : DrawError} (hfault : panelsFault? panels = none)
    (h : drawWith fuel panels size = .error e) :
    ∃ halt, e = .halted halt ∧ Halts size fuel panels halt := by
  unfold drawWith at h
  rw [hfault] at h
  obtain ⟨halt, hhalt, rfl⟩ := Except.mapError_eq_error_iff.mp h
  refine ⟨halt, rfl, ?_⟩
  unfold layOut at hhalt
  rcases Except.bind_eq_error_iff.mp hhalt with hwidth | ⟨width, -, hrest⟩
  · obtain ⟨rfl, hlarge⟩ := word_eq_error_iff.mp hwidth
    rw [UInt32.toNat_ofNat'] at hlarge
    exact .overflow fun hfit => absurd hfit.width (not_lt.mpr hlarge)
  · rcases Except.bind_eq_error_iff.mp hrest with hframes | ⟨fs, -, hdone⟩
    · exact halts_of_frames (fun _ hp => hp) hframes
    · cases hdone

/-- With all dashes ending, sizes that do not fit are what a drawing halts at. -/
theorem drawWith_of_not_sizesFit (hfault : panelsFault? panels = none)
    (hends : ∀ p ∈ panels, p.DashesEnd fuel) (hlarge : ¬ SizesFit size panels) :
    drawWith fuel panels size = .error (.halted .overflow) := by
  cases hdraw : drawWith fuel panels size with
  | ok figure => exact absurd ((exists_drawWith_iff hfault size).mp ⟨figure, hdraw⟩).1 hlarge
  | error e =>
      obtain ⟨halt, rfl, hhalts⟩ := halts_of_drawWith hfault hdraw
      cases hhalts with
      | overflow _ => rfl
      | endlessDashes hp hendless => exact absurd (hends _ hp) hendless

/-- With sizes that fit, dashes without an end are what a drawing halts at. -/
theorem drawWith_of_not_dashesEnd (hfault : panelsFault? panels = none)
    (hfit : SizesFit size panels) (hendless : ¬ ∀ p ∈ panels, p.DashesEnd fuel) :
    drawWith fuel panels size = .error (.halted .endlessDashes) := by
  cases hdraw : drawWith fuel panels size with
  | ok figure => exact absurd ((exists_drawWith_iff hfault size).mp ⟨figure, hdraw⟩).2 hendless
  | error e =>
      obtain ⟨halt, rfl, hhalts⟩ := halts_of_drawWith hfault hdraw
      cases hhalts with
      | overflow hlarge => exact absurd hfit hlarge
      | endlessDashes _ _ => rfl

theorem drawWith_ne_endlessDashes (hfault : panelsFault? panels = none)
    (hends : ∀ p ∈ panels, p.DashesEnd fuel) (size : FigureSize) :
    drawWith fuel panels size ≠ .error (.halted .endlessDashes) := by
  intro hdraw
  obtain ⟨halt, hhalt, hhalts⟩ := halts_of_drawWith hfault hdraw
  obtain rfl := DrawError.halted.inj hhalt
  cases hhalts with
  | endlessDashes hp hendless => exact hendless (hends _ hp)

theorem legends_of_frames {fs : List Frame} (h : frames size width fuel n k panels = .ok fs) :
    fs.map Frame.legend = panels.map Panel.legendEntries? := by
  induction panels generalizing k fs with
  | nil =>
      obtain rfl := Except.ok.inj h
      rfl
  | cons p rest ih =>
      rw [frames, Except.bind_eq_ok_iff] at h
      obtain ⟨f, hf, hrest⟩ := h
      obtain ⟨others, hothers, hfs⟩ := Except.bind_eq_ok_iff.mp hrest
      obtain rfl := Except.ok.inj hfs
      obtain ⟨head, s, -, -, rfl⟩ := Panel.frame_eq_ok_iff.mp hf
      rw [List.map_cons, List.map_cons, ih hothers]
      rfl

/-- Every panel has its legend in the figure. -/
theorem legends_of_draw {figure : Figure} (h : draw panels size = .ok figure) :
    figure.frames.map Frame.legend = panels.map Panel.legendEntries? := by
  obtain ⟨width, fs, -, hframes, rfl⟩ := layOut_eq_ok_iff.mp (drawWith_eq_ok_iff.mp h).2
  exact legends_of_frames hframes

theorem length_frames_of_draw {figure : Figure} (h : draw panels size = .ok figure) :
    figure.frames.length = panels.length := by
  have hlegends := congrArg List.length (legends_of_draw h)
  rwa [List.length_map, List.length_map] at hlegends

theorem exists_draw (hfault : panelsFault? panels = none) (hfit : SizesFit size panels)
    (hends : ∀ p ∈ panels, p.DashesEnd cutLimit) : ∃ figure, draw panels size = .ok figure :=
  (exists_drawWith_iff hfault size).mpr ⟨hfit, hends⟩

/-- One panel without a title is not wider than a word, whatever its size. -/
theorem sizesFit_singleton (size : FigureSize) (h : p.title = none) : SizesFit size [p] := by
  have hword := size.panelWidth.toNat_lt
  refine ⟨?_, ?_⟩
  · rw [List.length_singleton]
    omega
  · intro q hq htitle
    obtain rfl := List.mem_singleton.mp hq
    exact absurd h htitle

end GrowthCurve.Plot
