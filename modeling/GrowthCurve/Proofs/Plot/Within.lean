import Mathlib
import GrowthCurve.Plot.Sketch
import GrowthCurve.Proofs.Plot.Dashing
import GrowthCurve.Proofs.Plot.Drawing
import GrowthCurve.Proofs.Plot.Hull

/-!
# Lines within the axes

Every cut of a dashed curve lies between two consecutive points of it, since the
pen never has less than nothing and never more than the segment left to go. The
axes leave headroom around all visible points of a panel, so that no line that
is drawn touches them.
-/

namespace GrowthCurve.Plot

open scoped Exact

/-! ## Vertices of dashes -/

/-- A point between two consecutive points of a curve. -/
def OnCurve (points : List (ℝ × ℝ)) (v : ℝ × ℝ) : Prop :=
  ∃ a b t, [a, b] <:+: points ∧ 0 ≤ t ∧ t ≤ 1 ∧ v = between a b t

/-- Neither dashes nor gaps are negative. -/
structure DashPattern.Nonneg (d : DashPattern ℝ) : Prop where
  dash : 0 ≤ d.dash
  gap : 0 ≤ d.gap

theorem DashPattern.Nonneg.part {d : DashPattern ℝ} (h : d.Nonneg) (drawing : Bool) :
    0 ≤ d.part drawing := by
  cases drawing
  · exact h.gap
  · exact h.dash

namespace Pen

/-- A pen that has something left of its part, and whose vertices are all of one kind. -/
structure Keeps (P : ℝ × ℝ → Prop) (pen : Pen ℝ) : Prop where
  remaining : 0 ≤ pen.remaining
  current : ∀ v ∈ pen.current, P v
  finished : ∀ piece ∈ pen.finished, ∀ v ∈ piece, P v

variable {P : ℝ × ℝ → Prop} {d : DashPattern ℝ} {pen pen' : Pen ℝ} {a b cut stop : ℝ × ℝ}
  {length : ℝ} {fuel left : ℕ}

theorem Keeps.cutAt (h : pen.Keeps P) (hd : d.Nonneg) (hcut : P cut) :
    (pen.cutAt d cut).Keeps P := by
  have hpiece : ∀ v ∈ cut :: pen.current, P v := List.forall_mem_cons.mpr ⟨hcut, h.current⟩
  refine ⟨hd.part _, ?_, ?_⟩
  · unfold Pen.cutAt
    dsimp only
    split
    · exact fun v hv => absurd hv List.not_mem_nil
    · exact hpiece
  · unfold Pen.cutAt
    dsimp only
    split
    · refine List.forall_mem_cons.mpr ⟨fun v hv => ?_, h.finished⟩
      exact hpiece v (List.mem_reverse.mp hv)
    · exact h.finished

theorem Keeps.arrive (h : pen.Keeps P) (hfits : length ≤ pen.remaining) (hstop : P stop) :
    (pen.arrive length stop).Keeps P := by
  refine ⟨sub_nonneg.mpr hfits, ?_, h.finished⟩
  unfold Pen.arrive
  dsimp only
  split
  · exact List.forall_mem_cons.mpr ⟨hstop, h.current⟩
  · exact h.current

/-- The pen moves on towards the end of the segment, and each cut is a point of
the segment again. -/
theorem Keeps.along {u : ℝ} (h : pen.Keeps P) (hd : d.Nonneg) (hu : 0 ≤ u) (hu' : u ≤ 1)
    (hsegment : ∀ t, 0 ≤ t → t ≤ 1 → P (between a b t))
    (halong : Pen.along d fuel (between a b u) b length pen = some (left, pen')) :
    pen'.Keeps P := by
  have hstop : P b := by
    rw [← between_one a b]
    exact hsegment 1 zero_le_one le_rfl
  induction fuel generalizing u length pen with
  | zero =>
      unfold Pen.along at halong
      rw [Exact.less_eq] at halong
      split_ifs at halong with hlong
      obtain ⟨-, rfl⟩ := Prod.mk.inj (Option.some.inj halong)
      exact h.arrive (by simpa using hlong) hstop
  | succ fuel ih =>
      unfold Pen.along at halong
      rw [Exact.less_eq] at halong
      split_ifs at halong with hlong
      · have hlong : pen.remaining < length := by simpa using hlong
        have hpos : 0 < length := h.remaining.trans_lt hlong
        have hfraction : 0 ≤ pen.remaining / length := div_nonneg h.remaining hpos.le
        have hfraction' : pen.remaining / length ≤ 1 := (div_le_one hpos).mpr hlong.le
        have hcut : between (between a b u) b (pen.remaining / length) =
            between a b (u + (1 - u) * (pen.remaining / length)) := by
          rw [← between_between, between_one]
        have hlow : 0 ≤ u + (1 - u) * (pen.remaining / length) :=
          add_nonneg hu (mul_nonneg (sub_nonneg.mpr hu') hfraction)
        have hhigh : u + (1 - u) * (pen.remaining / length) ≤ 1 := by
          nlinarith
        rw [hcut] at halong
        exact ih (h.cutAt hd (hsegment _ hlow hhigh)) hlow hhigh halong
      · obtain ⟨-, rfl⟩ := Prod.mk.inj (Option.some.inj halong)
        exact h.arrive (by simpa using hlong) hstop

theorem Keeps.follow {curve : List (ℝ × ℝ)} (h : pen.Keeps P) (hd : d.Nonneg)
    (hcurve : ∀ a b, [a, b] <:+: curve → ∀ t, 0 ≤ t → t ≤ 1 → P (between a b t))
    (hfollow : Pen.follow d fuel curve pen = some pen') : pen'.Keeps P := by
  induction curve generalizing fuel pen with
  | nil =>
      obtain rfl := Option.some.inj hfollow
      exact h
  | cons a rest ih =>
      cases rest with
      | nil =>
          obtain rfl := Option.some.inj hfollow
          exact h
      | cons b rest =>
          unfold Pen.follow at hfollow
          split at hfollow
          case h_1 halong =>
            rw [← between_zero a b] at halong
            have hsegment := hcurve a b ⟨[], rest, rfl⟩
            exact ih (h.along hd le_rfl zero_le_one hsegment halong)
              (fun x y hxy => hcurve x y (List.infix_cons hxy)) hfollow
          case h_2 => cases hfollow

theorem Keeps.pieces (h : pen.Keeps P) : ∀ piece ∈ pen.pieces, ∀ v ∈ piece, P v := by
  intro piece hpiece v hv
  unfold Pen.pieces at hpiece
  rcases List.mem_append.mp hpiece with hdone | hlast
  · exact h.finished piece (List.mem_reverse.mp hdone) v hv
  · split_ifs at hlast
    · rw [List.mem_singleton.mp hlast] at hv
      exact h.current v (List.mem_reverse.mp hv)
    · cases hlast

end Pen

/-- Every vertex of a dash is between two consecutive points of the curve. -/
theorem onCurve_of_dashPieces {d : DashPattern ℝ} {points : List (ℝ × ℝ)} {fuel : ℕ}
    {pieces : List (List (ℝ × ℝ))} (hd : d.Nonneg) (h : dashPieces d fuel points = some pieces) :
    ∀ piece ∈ pieces, ∀ v ∈ piece, OnCurve points v := by
  obtain ⟨pen, hfollow, rfl⟩ := Option.map_eq_some_iff.mp h
  rcases points with _ | ⟨a, _ | ⟨b, rest⟩⟩
  · obtain rfl := Option.some.inj hfollow
    simp [Pen.pieces]
  · obtain rfl := Option.some.inj hfollow
    simp [Pen.pieces]
  · have hfirst : OnCurve (a :: b :: rest) a :=
      ⟨a, b, 0, ⟨[], rest, rfl⟩, le_rfl, zero_le_one, (between_zero a b).symm⟩
    have hinitial : Pen.Keeps (OnCurve (a :: b :: rest))
        ⟨true, d.dash, (a :: b :: rest).take 1, []⟩ :=
      ⟨hd.dash, by simpa using hfirst, by simp⟩
    exact (hinitial.follow hd (fun x y hxy t ht ht' => ⟨x, y, t, hxy, ht, ht', rfl⟩) hfollow).pieces

/-! ## Dashes of finite points -/

def DashPattern.toExtended (d : DashPattern ℝ) : DashPattern (Extended ℝ) :=
  ⟨.finite d.dash, .finite d.gap, finitePoint d.spans⟩

def Pen.toExtended (pen : Pen ℝ) : Pen (Extended ℝ) :=
  ⟨pen.drawing, .finite pen.remaining, pen.current.map finitePoint,
    pen.finished.map (List.map finitePoint)⟩

section Transfer

variable {d : DashPattern ℝ} {pen : Pen ℝ} {a b cut stop : ℝ × ℝ} {length : ℝ} {fuel : ℕ}

theorem between_finitePoint (a b : ℝ × ℝ) (t : ℝ) :
    between (finitePoint a) (finitePoint b) (.finite t) = finitePoint (between a b t) := by
  simp [between, finitePoint]

theorem unit_finite (span : ℝ) :
    DashPattern.unit (Extended.finite span) = .finite (DashPattern.unit span) := by
  unfold DashPattern.unit
  by_cases h : 0 < span <;> simp [h]

theorem distance_toExtended :
    d.toExtended.distance (finitePoint a) (finitePoint b) = .finite (d.distance a b) := by
  have hx := (DashPattern.unit_pos d.spans.1).ne'
  have hy := (DashPattern.unit_pos d.spans.2).ne'
  simp [DashPattern.distance, DashPattern.toExtended, finitePoint, unit_finite,
    Extended.finite_div _ hx, Extended.finite_div _ hy]

theorem cutAt_toExtended :
    pen.toExtended.cutAt d.toExtended (finitePoint cut) = (pen.cutAt d cut).toExtended := by
  obtain ⟨drawing, remaining, current, finished⟩ := pen
  cases drawing <;>
    simp [Pen.cutAt, Pen.toExtended, DashPattern.part, DashPattern.toExtended]

theorem arrive_toExtended :
    pen.toExtended.arrive (.finite length) (finitePoint stop) =
      (pen.arrive length stop).toExtended := by
  obtain ⟨drawing, remaining, current, finished⟩ := pen
  cases drawing <;> simp [Pen.arrive, Pen.toExtended]

/-- The division by the length of a segment is one by a positive number, since
the pen has less than that left, but not less than nothing. -/
theorem along_toExtended (hd : d.Nonneg) (hpen : 0 ≤ pen.remaining) :
    Pen.along d.toExtended fuel (finitePoint a) (finitePoint b) (.finite length) pen.toExtended =
      (Pen.along d fuel a b length pen).map fun reached => (reached.1, reached.2.toExtended) := by
  have htest : Scalar.less pen.toExtended.remaining (.finite length) =
      Scalar.less pen.remaining length := rfl
  induction fuel generalizing a length pen with
  | zero =>
      unfold Pen.along
      rw [htest, arrive_toExtended]
      split <;> rfl
  | succ fuel ih =>
      unfold Pen.along
      rw [htest, arrive_toExtended]
      split
      · next hcut =>
          have hlong : pen.remaining < length := by simpa using hcut
          have hlength : length ≠ 0 := (hpen.trans_lt hlong).ne'
          have hpoint : between (finitePoint a) (finitePoint b)
              (pen.toExtended.remaining / .finite length) =
                finitePoint (between a b (pen.remaining / length)) := by
            rw [← between_finitePoint, ← Extended.finite_div _ hlength]
            rfl
          have hrest : Extended.finite length - pen.toExtended.remaining =
              .finite (length - pen.remaining) := Extended.finite_sub _ _
          dsimp only
          rw [hpoint, hrest, cutAt_toExtended]
          exact ih (hd.part _) rfl
      · rfl

theorem nonneg_of_along {left : ℕ} {pen' : Pen ℝ} (hd : d.Nonneg) (hpen : 0 ≤ pen.remaining)
    (h : Pen.along d fuel a b length pen = some (left, pen')) : 0 ≤ pen'.remaining := by
  have hkeeps : pen.Keeps fun _ => True := ⟨hpen, fun _ _ => trivial, fun _ _ _ _ => trivial⟩
  rw [← between_zero a b] at h
  exact (hkeeps.along hd le_rfl zero_le_one (fun _ _ _ => trivial) h).remaining

theorem follow_toExtended {curve : List (ℝ × ℝ)} (hd : d.Nonneg) (hpen : 0 ≤ pen.remaining) :
    Pen.follow d.toExtended fuel (curve.map finitePoint) pen.toExtended =
      (Pen.follow d fuel curve pen).map Pen.toExtended := by
  induction curve generalizing fuel pen with
  | nil => rfl
  | cons a rest ih =>
      cases rest with
      | nil => rfl
      | cons b rest =>
          simp only [List.map_cons, Pen.follow, distance_toExtended, along_toExtended hd hpen]
          cases halong : Pen.along d fuel a b (d.distance a b) pen with
          | none => rfl
          | some reached => exact ih (nonneg_of_along hd hpen halong)

theorem pieces_toExtended (pen : Pen ℝ) :
    pen.toExtended.pieces = pen.pieces.map (List.map finitePoint) := by
  obtain ⟨drawing, remaining, current, finished⟩ := pen
  unfold Pen.pieces Pen.toExtended
  rw [List.map_append, List.map_reverse, List.length_map]
  split_ifs <;> simp

/-- Finite points are dashed as their numbers are. -/
theorem dashPieces_toExtended {points : List (ℝ × ℝ)} (hd : d.Nonneg) :
    dashPieces d.toExtended fuel (points.map finitePoint) =
      (dashPieces d fuel points).map (List.map (List.map finitePoint)) := by
  have hfollow := @follow_toExtended d ⟨true, d.dash, points.take 1, []⟩ fuel points hd hd.dash
  have hinitial : (⟨true, d.toExtended.dash, (points.map finitePoint).take 1, []⟩ :
      Pen (Extended ℝ)) = Pen.toExtended ⟨true, d.dash, points.take 1, []⟩ := by
    rw [← List.map_take]
    rfl
  unfold dashPieces
  rw [hinitial, hfollow, Option.map_map, Option.map_map]
  exact congrArg (Option.map · _) (funext pieces_toExtended)

end Transfer

theorem vertices_of_dashPieces {d : DashPattern ℝ} {points : List (ℝ × ℝ)} {fuel : ℕ}
    {pieces : List (List (Extended ℝ × Extended ℝ))} (hd : d.Nonneg)
    (h : dashPieces d.toExtended fuel (points.map finitePoint) = some pieces) :
    ∀ piece ∈ pieces, ∀ v ∈ piece, ∃ q, OnCurve points q ∧ v = finitePoint q := by
  intro piece hpiece v hv
  rw [dashPieces_toExtended hd] at h
  obtain ⟨lines, hlines, rfl⟩ := Option.map_eq_some_iff.mp h
  obtain ⟨line, hline, rfl⟩ := List.mem_map.mp hpiece
  obtain ⟨q, hq, rfl⟩ := List.mem_map.mp hv
  exact ⟨q, onCurve_of_dashPieces hd hlines line hline q hq, rfl⟩

/-- With enough fuel every curve is cut to its end. -/
theorem exists_dashPieces_isSome (d : DashPattern ℝ) (hdash : 0 < d.dash) (hgap : 0 < d.gap)
    (points : List (ℝ × ℝ)) : ∃ enough, ∀ fuel ≥ enough, (dashPieces d fuel points).isSome := by
  cases points with
  | nil => exact ⟨0, fun fuel _ => dashPieces_isSome_of_length_le_one (Nat.zero_le 1)⟩
  | cons a rest =>
      obtain ⟨enough, pen, hfollow, -⟩ := Pen.exists_follow hdash hgap a rest
      refine ⟨enough, fun fuel hfuel => ?_⟩
      have hpieces : dashPieces d fuel (a :: rest) = some pen.pieces :=
        congrArg (Option.map Pen.pieces) (hfollow fuel hfuel)
      rw [hpieces]
      rfl

/-! ## Lines of a panel -/

/-- A number strictly inside a range. -/
structure Range.Within {α : Type} [Scalar α] (r : Range α) (x : α) : Prop where
  after : Scalar.less r.start x = true
  before : Scalar.less x r.stop = true

theorem Range.within_finite {r : Range ℝ} {x : ℝ} (h : x ∈ Set.Ioo r.start r.stop) :
    (r.map Extended.finite).Within (.finite x) :=
  ⟨decide_eq_true h.1, decide_eq_true h.2⟩

/-- An open interval contains what is between two of its numbers. -/
theorem between_mem_Ioo {lo hi x y t : ℝ} (hx : x ∈ Set.Ioo lo hi) (hy : y ∈ Set.Ioo lo hi)
    (ht : 0 ≤ t) (ht' : t ≤ 1) : x + (y - x) * t ∈ Set.Ioo lo hi := by
  have hmem := convex_Ioo lo hi hx hy (sub_nonneg.mpr ht') ht (sub_add_cancel 1 t)
  have hpoint : (1 - t) • x + t • y = x + (y - x) * t := by
    simp only [smul_eq_mul]
    ring
  rwa [hpoint] at hmem

section Lines

variable {rx ry : Range ℝ} {points : List (ℝ × ℝ)}

theorem mem_Ioo_of_onCurve {v : ℝ × ℝ}
    (hpoints : ∀ q ∈ points, q.1 ∈ Set.Ioo rx.start rx.stop ∧ q.2 ∈ Set.Ioo ry.start ry.stop)
    (hv : OnCurve points v) :
    v.1 ∈ Set.Ioo rx.start rx.stop ∧ v.2 ∈ Set.Ioo ry.start ry.stop := by
  obtain ⟨a, b, t, hconsecutive, ht, ht', rfl⟩ := hv
  obtain ⟨hax, hay⟩ := hpoints a (hconsecutive.subset (by simp))
  obtain ⟨hbx, hby⟩ := hpoints b (hconsecutive.subset (by simp))
  exact ⟨between_mem_Ioo hax hbx ht ht', between_mem_Ioo hay hby ht ht'⟩

/-- A solid line goes through the points themselves, and the vertices of a
dashed one are between them. -/
theorem vertices_of_lines {c : Curve (Extended ℝ)} {d : DashPattern ℝ} {fuel : ℕ}
    {lines : List (List (Extended ℝ × Extended ℝ))} (hd : d.Nonneg)
    (hvisible : c.visible = points.map finitePoint) (h : c.lines d.toExtended fuel = some lines) :
    ∀ line ∈ lines, ∀ v ∈ line, ∃ q, (q ∈ points ∨ OnCurve points q) ∧ v = finitePoint q := by
  intro line hline v hv
  unfold Curve.lines at h
  split at h
  · have hlines := Option.some.inj h
    split_ifs at hlines
    · rw [← hlines] at hline
      cases hline
    · rw [← hlines] at hline
      rw [List.mem_singleton.mp hline, hvisible] at hv
      obtain ⟨q, hq, rfl⟩ := List.mem_map.mp hv
      exact ⟨q, .inl hq, rfl⟩
  · rw [hvisible] at h
    obtain ⟨q, hq, rfl⟩ := vertices_of_dashPieces hd h line hline v hv
    exact ⟨q, .inr hq, rfl⟩

end Lines

theorem mem_allStrokes {α : Type} [Scalar α] {d : DashPattern α} {fuel : ℕ}
    {curves : List (Curve α)} {strokes : List (Stroke α)} {stroke : Stroke α}
    (h : allStrokes d fuel curves = some strokes) (hstroke : stroke ∈ strokes) :
    ∃ c ∈ curves, ∃ lines, c.lines d fuel = some lines ∧ stroke.points ∈ lines := by
  induction curves generalizing strokes with
  | nil =>
      obtain rfl := Option.some.inj h
      cases hstroke
  | cons c rest ih =>
      unfold allStrokes at h
      split at h
      case h_1 first others hfirst hothers =>
        obtain rfl := Option.some.inj h
        rcases List.mem_append.mp hstroke with hmem | hmem
        · obtain ⟨lines, hlines, rfl⟩ := Option.map_eq_some_iff.mp hfirst
          obtain ⟨line, hline, rfl⟩ := List.mem_map.mp hmem
          exact ⟨c, List.mem_cons_self, lines, hlines, hline⟩
        · obtain ⟨c', hc', hlines⟩ := ih hothers hmem
          exact ⟨c', List.mem_cons_of_mem _ hc', hlines⟩
      case h_2 => cases h

section Panels

variable {p : Panel (Extended ℝ)}

/-- The axes of a panel in exact numbers. -/
noncomputable def Panel.exactAxes (p : Panel (Extended ℝ)) : Range ℝ × Range ℝ :=
  (Range.padded (Range.hull ((exactPoints p.visible).map Prod.fst)),
    Range.padded (Range.hull ((exactPoints p.visible).map Prod.snd)))

theorem Panel.axisRanges_visible (p : Panel (Extended ℝ)) :
    axisRanges p.visible =
      (p.exactAxes.1.map Extended.finite, p.exactAxes.2.map Extended.finite) :=
  axisRanges_eq p.visible

theorem axisDashes_finite (rx ry : Range ℝ) :
    axisDashes (rx.map Extended.finite) (ry.map Extended.finite) =
      (axisDashes rx ry).toExtended := by
  have hspans : (Range.span (rx.map Extended.finite), Range.span (ry.map Extended.finite)) =
      finitePoint (rx.span, ry.span) := by
    simp [Range.span, Range.map, finitePoint]
  unfold axisDashes
  rw [hspans]
  rfl

theorem axisDashes_pos (rx ry : Range ℝ) :
    0 < (axisDashes rx ry).dash ∧ 0 < (axisDashes rx ry).gap := by
  constructor <;> norm_num [axisDashes]

theorem Panel.mem_visible {c : Curve (Extended ℝ)} (hc : c ∈ p.curves)
    {q : Extended ℝ × Extended ℝ} (hq : q ∈ c.visible) : q ∈ p.visible :=
  List.mem_flatMap.mpr ⟨c, hc, hq⟩

/-- The axes have room for every point of every curve. -/
theorem Panel.mem_exactAxes {c : Curve (Extended ℝ)} (hc : c ∈ p.curves) {q : ℝ × ℝ}
    (hq : q ∈ exactPoints c.visible) :
    q.1 ∈ Set.Ioo p.exactAxes.1.start p.exactAxes.1.stop ∧
      q.2 ∈ Set.Ioo p.exactAxes.2.start p.exactAxes.2.stop := by
  have hshown : q ∈ exactPoints p.visible :=
    mem_exactPoints.mpr (p.mem_visible hc (mem_exactPoints.mp hq))
  exact ⟨Range.mem_padded_hull (List.mem_map_of_mem hshown),
    Range.mem_padded_hull (List.mem_map_of_mem hshown)⟩

/-- The dashes of the panel, in exact numbers. -/
theorem Panel.axisDashes_visible (p : Panel (Extended ℝ)) :
    axisDashes (axisRanges p.visible).1 (axisRanges p.visible).2 =
      (axisDashes p.exactAxes.1 p.exactAxes.2).toExtended := by
  rw [p.axisRanges_visible]
  exact axisDashes_finite _ _

theorem Panel.exists_dashesEnd
    (hfinite : ∀ q ∈ p.visible, Scalar.isFinite q.1 = true ∧ Scalar.isFinite q.2 = true) :
    ∃ enough, ∀ fuel ≥ enough, p.DashesEnd fuel := by
  obtain ⟨hdash, hgap⟩ := axisDashes_pos p.exactAxes.1 p.exactAxes.2
  have hcurve : ∀ c ∈ p.curves, ∃ enough, ∀ fuel ≥ enough,
      (dashPieces (axisDashes (axisRanges p.visible).1 (axisRanges p.visible).2)
        (fuel * c.visible.length) c.visible).isSome := by
    intro c hc
    obtain ⟨enough, hpieces⟩ := exists_dashPieces_isSome (axisDashes p.exactAxes.1 p.exactAxes.2)
      hdash hgap (exactPoints c.visible)
    refine ⟨enough, fun fuel hfuel => ?_⟩
    by_cases hshort : c.visible.length ≤ 1
    · exact dashPieces_isSome_of_length_le_one hshort
    · have hmore : enough ≤ fuel * c.visible.length :=
        hfuel.trans (Nat.le_mul_of_pos_right fuel (by omega))
      have hsame := @dashPieces_toExtended _ (fuel * c.visible.length) (exactPoints c.visible)
        ⟨hdash.le, hgap.le⟩
      rw [map_exactPoints fun q hq => hfinite q (p.mem_visible hc hq)] at hsame
      rw [p.axisDashes_visible, hsame, Option.isSome_map]
      exact hpieces _ hmore
  have hall : ∀ᶠ fuel in Filter.atTop, ∀ c ∈ {c | c ∈ p.curves},
      (dashPieces (axisDashes (axisRanges p.visible).1 (axisRanges p.visible).2)
        (fuel * c.visible.length) c.visible).isSome :=
    (Filter.eventually_all_finite p.curves.finite_toSet).mpr fun c hc =>
      Filter.eventually_atTop.mpr (hcurve c hc)
  obtain ⟨enough, henough⟩ := Filter.eventually_atTop.mp hall
  exact ⟨enough, fun fuel hfuel c hc _ => henough fuel hfuel c hc⟩

/-- Vertices are points of a curve or between two of them, and the axes have
room for all curves of the panel. -/
theorem Panel.within_of_sketch {fuel : ℕ} {s : Sketch (Extended ℝ)}
    (hfinite : ∀ q ∈ p.visible, Scalar.isFinite q.1 = true ∧ Scalar.isFinite q.2 = true)
    (hs : p.sketch fuel = some s) :
    ∀ stroke ∈ s.strokes, ∀ v ∈ stroke.points, s.xRange.Within v.1 ∧ s.yRange.Within v.2 := by
  intro stroke hstroke v hv
  obtain ⟨strokes, hstrokes, rfl⟩ := Option.map_eq_some_iff.mp hs
  obtain ⟨hdash, hgap⟩ := axisDashes_pos p.exactAxes.1 p.exactAxes.2
  obtain ⟨c, hc, lines, hlines, hline⟩ := mem_allStrokes hstrokes hstroke
  rw [p.axisDashes_visible] at hlines
  have hpoints := map_exactPoints fun q hq => hfinite q (p.mem_visible hc hq)
  obtain ⟨q, hq, rfl⟩ :=
    vertices_of_lines ⟨hdash.le, hgap.le⟩ hpoints.symm hlines _ hline v hv
  have hroom := fun q => p.mem_exactAxes (q := q) hc
  obtain ⟨hx, hy⟩ : q.1 ∈ Set.Ioo p.exactAxes.1.start p.exactAxes.1.stop ∧
      q.2 ∈ Set.Ioo p.exactAxes.2.start p.exactAxes.2.stop :=
    hq.elim (hroom q) (mem_Ioo_of_onCurve hroom)
  dsimp only
  rw [p.axisRanges_visible]
  exact ⟨Range.within_finite hx, Range.within_finite hy⟩

/-- **Lines stay within the axes**: if all points that are shown are finite, a panel can
be drawn, and every vertex of a line that is drawn lies strictly inside both axes,
whatever points are hidden. The vertices of a dash are between two consecutive points,
so that they cannot leave what the points of the curve span. -/
theorem lines_stay_within_axes (p : Panel (Extended ℝ))
    (hfinite : ∀ q ∈ p.visible, Scalar.isFinite q.1 = true ∧ Scalar.isFinite q.2 = true) :
    (∃ enough, ∀ fuel ≥ enough, (p.sketch fuel).isSome) ∧
    (∀ fuel s, p.sketch fuel = some s →
      (s.xRange, s.yRange) = axisRanges p.visible ∧
      ∀ stroke ∈ s.strokes, ∀ v ∈ stroke.points,
        s.xRange.Within v.1 ∧ s.yRange.Within v.2) ∧
    ∀ (d : DashPattern ℝ) (points : List (ℝ × ℝ)) fuel pieces, d.Nonneg →
      dashPieces d.toExtended fuel (points.map finitePoint) = some pieces →
      ∀ piece ∈ pieces, ∀ v ∈ piece,
        ∃ a b t, [a, b] <:+: points ∧ 0 ≤ t ∧ t ≤ 1 ∧ v = finitePoint (between a b t) := by
  refine ⟨?_, ?_, ?_⟩
  · obtain ⟨enough, hends⟩ := p.exists_dashesEnd hfinite
    exact ⟨enough, fun fuel hfuel => Panel.sketch_isSome_iff.mpr (hends fuel hfuel)⟩
  · intro fuel s hs
    refine ⟨?_, Panel.within_of_sketch hfinite hs⟩
    obtain ⟨strokes, -, rfl⟩ := Option.map_eq_some_iff.mp hs
    rfl
  · intro d points fuel pieces hd h piece hpiece v hv
    obtain ⟨q, hq, rfl⟩ := vertices_of_dashPieces hd h piece hpiece v hv
    obtain ⟨a, b, t, hconsecutive, ht, ht', rfl⟩ := hq
    exact ⟨a, b, t, hconsecutive, ht, ht', rfl⟩

end Panels

/-- A curve whose last sample is no number, which the ceiling hides. -/
def hiddenSample : Curve (Extended ℝ) :=
  ⟨[.finite 0, .finite 1, .finite 1], [.finite 0, .finite (-1), .nan], .solid, .blueTone,
    "measured", some (.finite 1)⟩

def dashedLine : Curve (Extended ℝ) :=
  ⟨[.finite 0, .finite 1], [.finite 0, .finite 1], .dashed, .redTone, "fitted", none⟩

theorem lines_stay_within_axes_hidden_sample :
    ∃ p : Panel (Extended ℝ), p.curves = [hiddenSample, dashedLine] ∧
      (∀ q ∈ p.visible, Scalar.isFinite q.1 = true ∧ Scalar.isFinite q.2 = true) ∧
      ∃ fuel s, p.sketch fuel = some s ∧
        (∃ stroke ∈ s.strokes, stroke.points = [finitePoint (0, 0), finitePoint (1, -1)]) ∧
        ∀ stroke ∈ s.strokes, ∀ v ∈ stroke.points, s.xRange.Within v.1 ∧ s.yRange.Within v.2 := by
  have hmeasured : hiddenSample.visible = [finitePoint (0, 0), finitePoint (1, -1)] := by
    have hnan : Scalar.less Extended.nan (Extended.finite (1 : ℝ)) = false := rfl
    simp [hiddenSample, Curve.visible, visiblePoints, isShown, finitePoint, hnan]
  have hdashed : dashedLine.visible = [finitePoint (0, 0), finitePoint (1, 1)] := by
    simp [dashedLine, Curve.visible, visiblePoints, isShown, finitePoint]
  have hfinite : ∀ q ∈ Panel.visible ⟨"x", "y", none, false, [hiddenSample, dashedLine]⟩,
      Scalar.isFinite q.1 = true ∧ Scalar.isFinite q.2 = true := by
    simp [Panel.visible, hmeasured, hdashed, finitePoint]
  obtain ⟨⟨enough, hsketch⟩, hinside, -⟩ := lines_stay_within_axes _ hfinite
  obtain ⟨s, hs⟩ := Option.isSome_iff_exists.mp (hsketch enough le_rfl)
  refine ⟨_, rfl, hfinite, enough, s, hs, ?_, (hinside enough s hs).2⟩
  obtain ⟨strokes, hstrokes, rfl⟩ := Option.map_eq_some_iff.mp hs
  have hsolid : ∀ d, hiddenSample.strokes d enough =
      some [⟨.blueTone, [finitePoint (0, 0), finitePoint (1, -1)]⟩] := by
    intro d
    unfold Curve.strokes Curve.lines
    rw [hmeasured]
    rfl
  unfold allStrokes at hstrokes
  rw [hsolid] at hstrokes
  split at hstrokes
  case h_1 first others hfirst _ =>
    obtain rfl := Option.some.inj hfirst
    obtain rfl := Option.some.inj hstrokes
    exact ⟨_, List.mem_cons_self, rfl⟩
  case h_2 => cases hstrokes

end GrowthCurve.Plot
