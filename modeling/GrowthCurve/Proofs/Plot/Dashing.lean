import Mathlib
import GrowthCurve.Proofs.Plot.Polyline

/-!
# Dashes follow the pattern

The pen is somewhere in the periodic pattern: either it draws piece `n`, or it
pauses before piece `n`, where `n` is the number of finished pieces. What is
left of the current part of the pattern leads exactly to the end of a dash, or
to the beginning of the next one. Cutting and arriving at a vertex keep this,
so that in the end the pieces are the parts of the curve under the dashes.
-/

namespace GrowthCurve.Plot

open scoped Exact

/-- The arc length at which dash `n` begins. -/
noncomputable def DashPattern.dashStart (d : DashPattern ℝ) (n : ℕ) : ℝ :=
  n * (d.dash + d.gap)

theorem DashPattern.dashStart_succ (d : DashPattern ℝ) (n : ℕ) :
    d.dashStart (n + 1) = d.dashStart n + d.dash + d.gap := by
  unfold DashPattern.dashStart
  push_cast
  ring

/-- A dash and its gap end before any later dash begins. -/
theorem DashPattern.dashStart_add_le {d : DashPattern ℝ} {i n : ℕ} (hperiod : 0 ≤ d.dash + d.gap)
    (h : i < n) : d.dashStart i + d.dash + d.gap ≤ d.dashStart n := by
  rw [← d.dashStart_succ]
  unfold DashPattern.dashStart
  exact mul_le_mul_of_nonneg_right (by exact_mod_cast h) hperiod

/-- The dashes that begin before `length` are counted by the last of them. -/
theorem DashPattern.lt_succ_iff_dashStart_lt {d : DashPattern ℝ} {i n : ℕ} {length : ℝ}
    (hperiod : 0 < d.dash + d.gap) (hlast : d.dashStart n < length)
    (hnext : length ≤ d.dashStart (n + 1)) : i < n + 1 ↔ d.dashStart i < length := by
  have hmono : StrictMono d.dashStart := by
    apply strictMono_nat_of_lt_succ
    intro k
    rw [d.dashStart_succ]
    linarith
  constructor
  · intro hi
    exact lt_of_le_of_lt (hmono.monotone (Nat.lt_succ_iff.mp hi)) hlast
  · intro hi
    exact hmono.lt_iff_lt.mp (lt_of_lt_of_le hi hnext)

namespace Pen

variable {d : DashPattern ℝ} {points : List (ℝ × ℝ)} {pen : Pen ℝ} {s e : ℝ}

/-! ## The invariant -/

/-- Every finished piece is the part of the curve under its dash. -/
def Finished (d : DashPattern ℝ) (points : List (ℝ × ℝ)) (pen : Pen ℝ) : Prop :=
  ∀ i piece, pen.finished.reverse[i]? = some piece →
    d.Traces points (d.dashStart i) (d.dashStart i + d.dash) piece

/-- The pen draws piece `n` and has come to arc length `s`; the curve goes on
to `e`. -/
structure Draws (d : DashPattern ℝ) (points : List (ℝ × ℝ)) (pen : Pen ℝ) (s e : ℝ) : Prop where
  drawing : pen.drawing = true
  finished : Finished d points pen
  left : s + pen.remaining = d.dashStart pen.finished.length + d.dash
  nonneg : 0 ≤ pen.remaining
  begun : d.dashStart pen.finished.length ≤ s
  before : pen.finished = [] ∨ d.dashStart pen.finished.length < e
  current : ∃ route, DashPattern.Route (d.stations 0 points) (d.dashStart pen.finished.length) s
    route ∧ pen.current.reverse = route.map (d.pointAt points)
  vertex : s = d.dashStart pen.finished.length ∨ s ∈ d.stations 0 points

/-- The pen pauses before piece `n` and has come to arc length `s`. -/
structure Pauses (d : DashPattern ℝ) (points : List (ℝ × ℝ)) (pen : Pen ℝ) (s : ℝ) : Prop where
  drawing : pen.drawing = false
  finished : Finished d points pen
  left : s + pen.remaining = d.dashStart pen.finished.length
  nonneg : 0 ≤ pen.remaining
  behind : d.dashStart pen.finished.length ≤ s + d.gap
  some_finished : pen.finished ≠ []
  current : pen.current = []

/-! ## One step -/

theorem Draws.mono {e' : ℝ} (h : Draws d points pen s e) (he : e ≤ e') :
    Draws d points pen s e' :=
  { h with before := h.before.imp id fun hlt => lt_of_lt_of_le hlt he }

/-- A piece is the last one or one before it. -/
theorem cases_of_getElem?_concat {ps : List (List (ℝ × ℝ))} {last piece : List (ℝ × ℝ)} {i : ℕ}
    (h : (ps ++ [last])[i]? = some piece) :
    i < ps.length ∧ ps[i]? = some piece ∨ i = ps.length ∧ piece = last := by
  rcases lt_trichotomy i ps.length with hlt | rfl | hgt
  · rw [List.getElem?_append_left hlt] at h
    exact Or.inl ⟨hlt, h⟩
  · rw [List.getElem?_concat_length] at h
    exact Or.inr ⟨rfl, (Option.some.inj h).symm⟩
  · rw [List.getElem?_eq_none (by simpa using hgt)] at h
    exact absurd h (by simp)

/-- A finished piece is kept as the last one. -/
theorem Finished.append {piece : List (ℝ × ℝ)} {pen' : Pen ℝ} (h : Finished d points pen)
    (hpen : pen'.finished = piece :: pen.finished)
    (hpiece : d.Traces points (d.dashStart pen.finished.length)
      (d.dashStart pen.finished.length + d.dash) piece) : Finished d points pen' := by
  intro i p hp
  rw [hpen, List.reverse_cons] at hp
  rcases cases_of_getElem?_concat hp with ⟨-, hbefore⟩ | ⟨hi, rfl⟩
  · exact h i p hbefore
  · rw [hi, List.length_reverse]
    exact hpiece

theorem cutAt_of_drawing (h : pen.drawing = true) (cut : ℝ × ℝ) :
    pen.cutAt d cut = ⟨false, d.gap, [], (cut :: pen.current).reverse :: pen.finished⟩ := by
  simp [cutAt, h, DashPattern.part]

theorem cutAt_of_pausing (h : pen.drawing = false) (hcurrent : pen.current = [])
    (cut : ℝ × ℝ) : pen.cutAt d cut = ⟨true, d.dash, [cut], pen.finished⟩ := by
  simp [cutAt, h, hcurrent, DashPattern.part]

/-- The end of a dash finishes its piece. -/
theorem Draws.cut (h : Draws d points pen s e) (hgap : 0 < d.gap)
    (hcut : s + pen.remaining < e) (hclear : ∀ v ∈ d.stations 0 points, v ≤ s ∨ e ≤ v) :
    Pauses d points (pen.cutAt d (d.pointAt points (s + pen.remaining))) (s + pen.remaining) := by
  obtain ⟨route, hroute, hcurrent⟩ := h.current
  have hextended := hroute.extend h.vertex (le_add_of_nonneg_right h.nonneg)
    fun v hv => (hclear v hv).imp id fun hev => hcut.le.trans hev
  have hpiece : d.Traces points (d.dashStart pen.finished.length)
      (d.dashStart pen.finished.length + d.dash)
      (d.pointAt points (s + pen.remaining) :: pen.current).reverse := by
    refine ⟨route ++ [s + pen.remaining], h.left ▸ hextended, ?_⟩
    rw [List.reverse_cons, hcurrent, List.map_append, List.map_singleton]
  rw [cutAt_of_drawing h.drawing]
  refine ⟨rfl, h.finished.append rfl hpiece, ?_, hgap.le, ?_, by simp, rfl⟩
  · rw [h.left, List.length_cons, d.dashStart_succ]
  · rw [h.left, List.length_cons, d.dashStart_succ]

/-- The end of a gap begins the next piece. -/
theorem Pauses.cut (h : Pauses d points pen s) (hdash : 0 < d.dash)
    (hcut : s + pen.remaining < e) :
    Draws d points (pen.cutAt d (d.pointAt points (s + pen.remaining))) (s + pen.remaining) e := by
  rw [cutAt_of_pausing h.drawing h.current, h.left]
  rw [h.left] at hcut
  refine ⟨rfl, h.finished, rfl, hdash.le, le_refl _, Or.inr hcut, ?_, Or.inl rfl⟩
  exact ⟨[d.dashStart pen.finished.length], DashPattern.Route.single _ _, rfl⟩

/-- A vertex within a dash belongs to the piece. -/
theorem Draws.arrive (h : Draws d points pen s e) (hse : s ≤ e)
    (hfits : e - s ≤ pen.remaining) (hclear : ∀ v ∈ d.stations 0 points, v ≤ s ∨ e ≤ v)
    (hvertex : e ∈ d.stations 0 points) :
    Draws d points (pen.arrive (e - s) (d.pointAt points e)) e e := by
  obtain ⟨route, hroute, hcurrent⟩ := h.current
  refine ⟨h.drawing, h.finished, ?_, sub_nonneg.mpr hfits, h.begun.trans hse, h.before, ?_,
    Or.inr hvertex⟩
  · show e + (pen.remaining - (e - s)) = d.dashStart pen.finished.length + d.dash
    rw [← h.left]
    ring
  · refine ⟨route ++ [e], hroute.extend h.vertex hse hclear, ?_⟩
    simp [Pen.arrive, h.drawing, hcurrent]

/-- A vertex within a gap is passed over. -/
theorem Pauses.arrive (h : Pauses d points pen s) (hse : s ≤ e)
    (hfits : e - s ≤ pen.remaining) (stop : ℝ × ℝ) :
    Pauses d points (pen.arrive (e - s) stop) e := by
  refine ⟨h.drawing, h.finished, ?_, sub_nonneg.mpr hfits, ?_, h.some_finished, ?_⟩
  · show e + (pen.remaining - (e - s)) = d.dashStart pen.finished.length
    rw [← h.left]
    ring
  · exact h.behind.trans (by linarith)
  · simp [Pen.arrive, h.drawing, h.current]

/-! ## One segment -/

/-- Where the pen can be in the pattern. -/
def At (d : DashPattern ℝ) (points : List (ℝ × ℝ)) (pen : Pen ℝ) (s e : ℝ) : Prop :=
  Draws d points pen s e ∨ Pauses d points pen s

theorem At.nonneg (h : At d points pen s e) : 0 ≤ pen.remaining :=
  h.elim Draws.nonneg Pauses.nonneg

/-- How often the curve was cut. -/
def cuts (pen : Pen ℝ) : ℕ :=
  2 * pen.finished.length - (if pen.drawing then 0 else 1)

theorem At.cut (h : At d points pen s e) (hdash : 0 < d.dash) (hgap : 0 < d.gap)
    (hcut : s + pen.remaining < e) (hclear : ∀ v ∈ d.stations 0 points, v ≤ s ∨ e ≤ v) :
    At d points (pen.cutAt d (d.pointAt points (s + pen.remaining))) (s + pen.remaining) e ∧
      cuts (pen.cutAt d (d.pointAt points (s + pen.remaining))) = cuts pen + 1 := by
  rcases h with h | h
  · refine ⟨Or.inr (h.cut hgap hcut hclear), ?_⟩
    simp [cuts, cutAt_of_drawing h.drawing, h.drawing]
    omega
  · refine ⟨Or.inl (h.cut hdash hcut), ?_⟩
    have hpos := List.length_pos_iff.mpr h.some_finished
    simp [cuts, cutAt_of_pausing h.drawing h.current, h.drawing]
    omega

/-- Before arc length `m` times the period the curve is cut less than `2 m` times. -/
theorem At.cuts_lt {m : ℕ} (h : At d points pen s e) (hdash : 0 < d.dash) (hgap : 0 < d.gap)
    (hcut : s + pen.remaining < e) (he : e ≤ d.dashStart m) : cuts pen < 2 * m := by
  have hperiod : 0 < d.dash + d.gap := add_pos hdash hgap
  have hbefore : d.dashStart pen.finished.length < d.dashStart m := by
    rcases h with h | h
    · linarith [h.left]
    · linarith [h.left]
  have hlt : pen.finished.length < m := by
    unfold DashPattern.dashStart at hbefore
    exact_mod_cast lt_of_mul_lt_mul_right hbefore hperiod.le
  unfold cuts
  omega

theorem At.arrive (h : At d points pen s e) (hse : s ≤ e) (hfits : e - s ≤ pen.remaining)
    (hclear : ∀ v ∈ d.stations 0 points, v ≤ s ∨ e ≤ v) (hvertex : e ∈ d.stations 0 points) :
    At d points (pen.arrive (e - s) (d.pointAt points e)) e e :=
  h.imp (fun h => h.arrive hse hfits hclear hvertex) fun h => h.arrive hse hfits _

/-- The pen gets to the end of a segment, if the fuel covers the cuts that are
to come before arc length `m` times the period. -/
theorem along_keeps_at {m fuel : ℕ} (hdash : 0 < d.dash) (hgap : 0 < d.gap) (hs : 0 ≤ s)
    (hse : s ≤ e) (hlength : e ≤ d.pathLength points) (he : e ≤ d.dashStart m)
    (hclear : ∀ v ∈ d.stations 0 points, v ≤ s ∨ e ≤ v) (hvertex : e ∈ d.stations 0 points)
    (hat : At d points pen s e) (hfuel : 2 * m ≤ fuel + cuts pen) :
    ∃ left pen', along d fuel (d.pointAt points s) (d.pointAt points e) (e - s) pen =
        some (left, pen') ∧ At d points pen' e e ∧ 2 * m ≤ left + cuts pen' := by
  induction fuel generalizing s pen with
  | zero =>
      have hfits : e - s ≤ pen.remaining := by
        by_contra hlong
        have hfew := hat.cuts_lt hdash hgap (by linarith) he
        omega
      refine ⟨0, pen.arrive (e - s) (d.pointAt points e), ?_,
        hat.arrive hse hfits hclear hvertex, hfuel⟩
      simp [along, hfits]
  | succ fuel ih =>
      by_cases hfits : e - s ≤ pen.remaining
      · refine ⟨fuel + 1, pen.arrive (e - s) (d.pointAt points e), ?_,
          hat.arrive hse hfits hclear hvertex, hfuel⟩
        simp [along, hfits]
      · have hcut : s + pen.remaining < e := by linarith
        have hnonneg := hat.nonneg
        have hpoint := d.pointAt_between hs (by linarith) hlength hclear
          (le_add_of_nonneg_right hnonneg) hcut.le
        rw [add_sub_cancel_left] at hpoint
        obtain ⟨hat', hcuts⟩ := hat.cut hdash hgap hcut hclear
        obtain ⟨left, pen', halong, hend⟩ := ih (add_nonneg hs hnonneg) hcut.le
          (fun v hv => (hclear v hv).imp (fun h => h.trans (le_add_of_nonneg_right hnonneg)) id)
          hat' (by omega)
        refine ⟨left, pen', ?_, hend⟩
        rw [← sub_sub] at halong
        simp only [along, Exact.less_eq, not_le.mp hfits, decide_true, if_true, hpoint]
        exact halong

/-! ## The whole curve -/

theorem follow_keeps_at {m fuel : ℕ} {a : ℝ × ℝ} {rest : List (ℝ × ℝ)} (hdash : 0 < d.dash)
    (hgap : 0 < d.gap) (hlength : d.pathLength points ≤ d.dashStart m)
    (hremains : d.Remains points s (a :: rest)) (hat : At d points pen s s)
    (hfuel : 2 * m ≤ fuel + cuts pen) :
    ∃ pen', follow d fuel (a :: rest) pen = some pen' ∧
      At d points pen' (d.pathLength points) (d.pathLength points) := by
  induction rest generalizing s a fuel pen with
  | nil =>
      refine ⟨pen, rfl, ?_⟩
      have hend : s = d.pathLength points := by
        rw [← hremains.length]
        exact (add_zero s).symm
      rw [← hend]
      exact hat
  | cons b rest ih =>
      have htail := hremains.tail
      have hsegment := d.distance_nonneg a b
      have hahead : At d points pen s (s + d.distance a b) :=
        hat.imp (fun h => h.mono (le_add_of_nonneg_right hsegment)) id
      obtain ⟨left, pen', halong, hat', hfuel'⟩ :=
        along_keeps_at hdash hgap hremains.nonneg (le_add_of_nonneg_right hsegment)
          htail.le_length (htail.le_length.trans hlength) hremains.clear htail.mem_stations
          hahead hfuel
      rw [hremains.pointAt_eq, htail.pointAt_eq, add_sub_cancel_left] at halong
      obtain ⟨pen'', hfollow, hend⟩ := ih htail hat' hfuel'
      refine ⟨pen'', ?_, hend⟩
      simp only [follow, halong]
      exact hfollow

/-- What the pieces of a curve of positive length are: one for every dash that
begins before the end of the curve, with the part of the curve under it. -/
structure Dashed (d : DashPattern ℝ) (points : List (ℝ × ℝ)) (pieces : List (List (ℝ × ℝ))) :
    Prop where
  count : ∀ i, i < pieces.length ↔ d.dashStart i < d.pathLength points
  traces : ∀ i piece, pieces[i]? = some piece →
    d.Traces points (d.dashStart i) (min (d.dashStart i + d.dash) (d.pathLength points)) piece

theorem Finished.traces_min {i : ℕ} {piece : List (ℝ × ℝ)} (h : Finished d points pen)
    (hpiece : pen.finished.reverse[i]? = some piece)
    (hend : d.dashStart i + d.dash ≤ d.pathLength points) :
    d.Traces points (d.dashStart i) (min (d.dashStart i + d.dash) (d.pathLength points)) piece := by
  rw [min_eq_left hend]
  exact h i piece hpiece

/-- A pen that draws at the end of the curve adds its last piece. -/
theorem Draws.dashed (hdash : 0 < d.dash) (hgap : 0 < d.gap) (hcurve : 0 < d.pathLength points)
    (h : Draws d points pen (d.pathLength points) (d.pathLength points)) :
    Dashed d points pen.pieces := by
  have hperiod : 0 < d.dash + d.gap := add_pos hdash hgap
  have hnonneg := h.nonneg
  have hleft := h.left
  have hlast : d.dashStart pen.finished.length < d.pathLength points := by
    rcases h.before with hnone | hlt
    · simpa [hnone, DashPattern.dashStart] using hcurve
    · exact hlt
  obtain ⟨route, hroute, hcurrent⟩ := h.current
  have htraces : d.Traces points (d.dashStart pen.finished.length) (d.pathLength points)
      pen.current.reverse := ⟨route, hroute, hcurrent⟩
  have htwo : 1 < pen.current.length := by
    have htwo := d.two_le_length_of_traces hlast htraces
    rwa [List.length_reverse] at htwo
  have hpieces : pen.pieces = pen.finished.reverse ++ [pen.current.reverse] := by
    simp [pieces, h.drawing, htwo]
  constructor
  · intro i
    rw [hpieces, List.length_append, List.length_reverse, List.length_singleton]
    apply DashPattern.lt_succ_iff_dashStart_lt hperiod hlast
    linarith [d.dashStart_succ pen.finished.length]
  · intro i piece hpiece
    rw [hpieces] at hpiece
    rcases cases_of_getElem?_concat hpiece with ⟨hi, hbefore⟩ | ⟨hi, rfl⟩
    · rw [List.length_reverse] at hi
      apply h.finished.traces_min hbefore
      linarith [DashPattern.dashStart_add_le hperiod.le hi]
    · rw [hi, List.length_reverse, min_eq_right (by linarith)]
      exact htraces

/-- A pen that pauses at the end of the curve has finished all pieces. -/
theorem Pauses.dashed (hdash : 0 < d.dash) (hgap : 0 < d.gap)
    (h : Pauses d points pen (d.pathLength points)) : Dashed d points pen.pieces := by
  have hperiod : 0 < d.dash + d.gap := add_pos hdash hgap
  have hpieces : pen.pieces = pen.finished.reverse := by
    simp [pieces, h.drawing]
  have hnonneg := h.nonneg
  have hleft := h.left
  have hbehind := h.behind
  constructor
  · intro i
    obtain ⟨n, hn⟩ := Nat.exists_eq_add_one.mpr (List.length_pos_iff.mpr h.some_finished)
    rw [hn] at hleft hbehind
    rw [hpieces, List.length_reverse, hn]
    apply DashPattern.lt_succ_iff_dashStart_lt hperiod
    · linarith [d.dashStart_succ n]
    · linarith
  · intro i piece hpiece
    rw [hpieces] at hpiece
    have hi : i < pen.finished.length := by
      have hbound := (List.getElem?_eq_some_iff.mp hpiece).1
      rwa [List.length_reverse] at hbound
    apply h.finished.traces_min hpiece
    linarith [DashPattern.dashStart_add_le hperiod.le hi]

/-! ## Fuel and curves without length -/

theorem along_add {fuel left more : ℕ} {a b : ℝ × ℝ} {length : ℝ} {pen' : Pen ℝ}
    (h : along d fuel a b length pen = some (left, pen')) :
    along d (fuel + more) a b length pen = some (left + more, pen') := by
  induction fuel generalizing a length pen with
  | zero =>
      by_cases hcut : pen.remaining < length
      · simp [along, hcut] at h
      · obtain ⟨rfl, rfl⟩ : 0 = left ∧ pen.arrive length b = pen' := by
          simpa [along, hcut] using h
        cases more <;> simp [along, hcut]
  | succ fuel ih =>
      rw [Nat.add_right_comm]
      by_cases hcut : pen.remaining < length
      · simp only [along, Exact.less_eq, hcut, decide_true, if_true] at h ⊢
        exact ih h
      · obtain ⟨rfl, rfl⟩ : fuel + 1 = left ∧ pen.arrive length b = pen' := by
          simpa [along, hcut] using h
        simp [along, hcut, Nat.add_right_comm]

/-- More fuel does not change where the pen gets to. -/
theorem follow_add {fuel more : ℕ} {curve : List (ℝ × ℝ)} {pen' : Pen ℝ}
    (h : follow d fuel curve pen = some pen') : follow d (fuel + more) curve pen = some pen' := by
  induction curve generalizing fuel pen with
  | nil => exact h
  | cons a rest ih =>
      cases rest with
      | nil => exact h
      | cons b rest =>
          cases halong : along d fuel a b (d.distance a b) pen with
          | none => simp [follow, halong] at h
          | some reached =>
              simp only [follow, halong] at h
              simp only [follow, along_add halong]
              exact ih h

/-- Along a curve without length a pen that draws takes every point. -/
theorem follow_of_pathLength_eq_zero {fuel : ℕ} {a : ℝ × ℝ} {rest : List (ℝ × ℝ)}
    (hzero : d.pathLength (a :: rest) = 0) (hdrawing : pen.drawing = true)
    (hremaining : 0 ≤ pen.remaining) :
    follow d fuel (a :: rest) pen = some { pen with current := rest.reverse ++ pen.current } := by
  induction rest generalizing a pen with
  | nil => rfl
  | cons b rest ih =>
      have htotal : d.distance a b + d.pathLength (b :: rest) = 0 := hzero
      have hsegment : d.distance a b = 0 := by
        linarith [d.distance_nonneg a b, d.pathLength_nonneg (b :: rest)]
      have hrest : d.pathLength (b :: rest) = 0 := by linarith
      have halong : along d fuel a b (d.distance a b) pen =
          some (fuel, { pen with current := b :: pen.current }) := by
        cases fuel <;> simp [along, hsegment, arrive, hdrawing, not_lt.mpr hremaining]
      have hfollow := @ih { pen with current := b :: pen.current } b hrest hdrawing hremaining
      simp only [follow, halong]
      rw [hfollow, List.reverse_cons, List.append_assoc, List.singleton_append]

/-- The pen at the first point of a curve. -/
def initial (d : DashPattern ℝ) (points : List (ℝ × ℝ)) : Pen ℝ :=
  ⟨true, d.dash, points.take 1, []⟩

theorem at_initial (hdash : 0 ≤ d.dash) (a : ℝ × ℝ) (rest : List (ℝ × ℝ)) :
    At d (a :: rest) (initial d (a :: rest)) 0 0 := by
  have hstart : d.dashStart 0 = 0 := by simp [DashPattern.dashStart]
  refine Or.inl ⟨rfl, ?_, ?_, hdash, ?_, Or.inl rfl, ⟨[0], ?_, ?_⟩, Or.inl ?_⟩
  · intro i piece hpiece
    simp [initial] at hpiece
  · simp [initial, hstart]
  · exact hstart.le
  · simpa [initial, hstart] using DashPattern.Route.single _ _
  · simp [initial]
  · exact hstart.symm

/-- The pen gets to the end of every curve, whatever the fuel above a bound. -/
theorem exists_follow (hdash : 0 < d.dash) (hgap : 0 < d.gap) (a : ℝ × ℝ)
    (rest : List (ℝ × ℝ)) :
    ∃ enough pen, (∀ fuel ≥ enough,
        follow d fuel (a :: rest) (initial d (a :: rest)) = some pen) ∧
      At d (a :: rest) pen (d.pathLength (a :: rest)) (d.pathLength (a :: rest)) := by
  have hperiod : 0 < d.dash + d.gap := add_pos hdash hgap
  obtain ⟨m, hm⟩ := exists_nat_ge (d.pathLength (a :: rest) / (d.dash + d.gap))
  obtain ⟨pen, hfollow, hend⟩ := follow_keeps_at hdash hgap ((div_le_iff₀ hperiod).mp hm)
    (DashPattern.Remains.refl d (a :: rest)) (at_initial hdash.le a rest)
    (Nat.le_add_right (2 * m) _)
  refine ⟨2 * m, pen, ?_, hend⟩
  intro fuel hfuel
  obtain ⟨more, rfl⟩ := Nat.exists_eq_add_of_le hfuel
  exact follow_add hfollow

theorem At.dashed (hdash : 0 < d.dash) (hgap : 0 < d.gap) (hcurve : 0 < d.pathLength points)
    (h : At d points pen (d.pathLength points) (d.pathLength points)) :
    Dashed d points pen.pieces :=
  h.elim (Draws.dashed hdash hgap hcurve) (Pauses.dashed hdash hgap)

end Pen

/-! ## The pieces -/

/-- A curve without length is its only piece. -/
theorem pieces_of_pathLength_eq_zero {d : DashPattern ℝ} {fuel : ℕ} {a : ℝ × ℝ}
    {rest : List (ℝ × ℝ)} {pen : Pen ℝ} (hdash : 0 ≤ d.dash)
    (hzero : d.pathLength (a :: rest) = 0)
    (h : Pen.follow d fuel (a :: rest) (Pen.initial d (a :: rest)) = some pen) :
    pen.pieces = if 2 ≤ (a :: rest).length then [a :: rest] else [] := by
  rw [Pen.follow_of_pathLength_eq_zero hzero rfl hdash] at h
  obtain rfl := Option.some.inj h
  simp only [Pen.pieces, Pen.initial, List.take_succ_cons, List.take_zero, List.length_append,
    List.length_reverse, List.length_cons, List.length_nil, List.reverse_append,
    List.reverse_reverse, List.reverse_nil, List.nil_append, Bool.true_and, decide_eq_true_eq]
  split_ifs with h₁ h₂ h₂
  · rfl
  · omega
  · omega
  · rfl

/-- **Dashes follow their pattern**: every curve is cut in finitely many steps. A curve
that has a length gets a piece for every dash that begins before its end: the part
under that dash with all vertices on it, as long as the dash or cut off at the end of
the curve, and a gap behind the piece before it. A curve without length is its only
piece. The pen carries what is left of the current dash or gap over every vertex. -/
theorem dashPieces_follow_pattern (d : DashPattern ℝ) (points : List (ℝ × ℝ))
    (hdash : 0 < d.dash) (hgap : 0 < d.gap) :
    ∃ pieces, (∃ enough, ∀ fuel ≥ enough, dashPieces d fuel points = some pieces) ∧
      (0 < d.pathLength points →
        (∀ i : ℕ, i < pieces.length ↔ i * (d.dash + d.gap) < d.pathLength points) ∧
        ∀ (i : ℕ) piece, pieces[i]? = some piece → ∃ s e : ℝ,
          s = i * (d.dash + d.gap) ∧ e = min (s + d.dash) (d.pathLength points) ∧
          2 ≤ piece.length ∧ d.Traces points s e piece ∧ d.pathLength piece = e - s ∧
          (i + 1 < pieces.length →
            d.pathLength piece = d.dash ∧ e + d.gap = (i + 1) * (d.dash + d.gap))) ∧
      (d.pathLength points = 0 → pieces = if 2 ≤ points.length then [points] else []) := by
  cases points with
  | nil =>
      refine ⟨[], ⟨0, fun fuel _ => by cases fuel <;> rfl⟩, ?_, fun _ => rfl⟩
      intro hcurve
      exact absurd hcurve (lt_irrefl 0)
  | cons a rest =>
      obtain ⟨enough, pen, hfollow, hend⟩ := Pen.exists_follow hdash hgap a rest
      refine ⟨pen.pieces, ⟨enough, ?_⟩, ?_, ?_⟩
      · intro fuel hfuel
        exact congrArg (Option.map Pen.pieces) (hfollow fuel hfuel)
      · intro hcurve
        have hdashed := hend.dashed hdash hgap hcurve
        refine ⟨hdashed.count, ?_⟩
        intro i piece hpiece
        have htraces := hdashed.traces i piece hpiece
        have hbegins : d.dashStart i < d.pathLength (a :: rest) :=
          (hdashed.count i).mp (List.getElem?_eq_some_iff.mp hpiece).1
        have hnonneg : 0 ≤ d.dashStart i := mul_nonneg i.cast_nonneg (add_pos hdash hgap).le
        have hlength := d.pathLength_of_traces hnonneg (min_le_right _ _) htraces
        refine ⟨d.dashStart i, _, rfl, rfl,
          d.two_le_length_of_traces (lt_min (by linarith) hbegins) htraces, htraces, hlength, ?_⟩
        intro hnext
        have hnextBegins := (hdashed.count (i + 1)).mp hnext
        have hstart := d.dashStart_succ i
        have hwhole : d.dashStart i + d.dash ≤ d.pathLength (a :: rest) := by linarith
        rw [min_eq_left hwhole] at hlength ⊢
        refine ⟨hlength.trans (add_sub_cancel_left _ _), ?_⟩
        rw [← hstart]
        simp [DashPattern.dashStart]
      · intro hzero
        exact pieces_of_pathLength_eq_zero hdash.le hzero (hfollow enough (le_refl _))

/-- A curve around a corner, of length eight when its first axis is measured in pairs.
Its second dash begins halfway along the first segment and goes over the corner. -/
theorem dashPieces_follow_pattern_around_corner :
    let d : DashPattern ℝ := ⟨3, 1, (2, 0)⟩
    let points : List (ℝ × ℝ) := [(0, 0), (6, 4), (12, 4)]
    ∃ first second, (∃ enough, ∀ fuel ≥ enough, dashPieces d fuel points = some [first, second]) ∧
      d.pathLength first = 3 ∧ d.pathLength second = 3 ∧
      second.head? = some (24 / 5, 16 / 5) ∧ (6, 4) ∈ second ∧
      second.getLast? = some (10, 4) := by
  intro d points
  have hfirst : d.distance (0, 0) (6, 4) = 5 := by
    rw [DashPattern.distance_eq, Real.sqrt_eq_iff_mul_self_eq_of_pos (by norm_num)]
    norm_num [d, DashPattern.unit]
  have hsecond : d.distance (6, 4) (12, 4) = 3 := by
    rw [DashPattern.distance_eq, Real.sqrt_eq_iff_mul_self_eq_of_pos (by norm_num)]
    norm_num [d, DashPattern.unit]
  have hlength : d.pathLength points = 8 := by
    have hsum : d.pathLength points =
      d.distance (0, 0) (6, 4) + (d.distance (6, 4) (12, 4) + 0) := rfl
    rw [hsum, hfirst, hsecond]
    norm_num
  obtain ⟨pieces, hpieces, hcurve, -⟩ :=
    dashPieces_follow_pattern d points (by norm_num [d]) (by norm_num [d])
  obtain ⟨hcount, hdashes⟩ := hcurve (by rw [hlength]; norm_num)
  rw [hlength] at hcount hdashes
  have htwo : pieces.length = 2 := by
    refine le_antisymm (not_lt.mp ?_) ((hcount 1).mpr (by norm_num [d]))
    rw [hcount]
    norm_num [d]
  obtain ⟨first, second, rfl⟩ := List.length_eq_two.mp htwo
  obtain ⟨s₀, e₀, hs₀, he₀, -, -, hdash₀, -⟩ := hdashes 0 first rfl
  obtain ⟨s, e, hs, he, -, ⟨route, hroute, hmap⟩, hdash, -⟩ := hdashes 1 second rfl
  obtain rfl : s = 4 := by norm_num [hs, d]
  obtain rfl : e = 7 := by norm_num [he, d]
  have hstart : d.pointAt points 4 = (24 / 5, 16 / 5) := by
    rw [d.pointAt_of_le (by rw [hfirst]; norm_num), hfirst]
    norm_num [between]
  have hcorner : d.pointAt points 5 = (6, 4) := by
    rw [← hfirst]
    exact d.pointAt_distance _ _ _
  have hend : d.pointAt points 7 = (10, 4) := by
    have hbehind : d.pointAt points (d.distance (0, 0) (6, 4) + 2) = _ :=
      d.pointAt_add (by norm_num)
    rw [show (7 : ℝ) = d.distance (0, 0) (6, 4) + 2 by rw [hfirst]; norm_num, hbehind,
      d.pointAt_of_le (by rw [hsecond]; norm_num), hsecond]
    norm_num [between]
  have hvertex : (5 : ℝ) ∈ d.stations 0 points := by
    rw [← hfirst]
    exact d.distance_mem_stations _ _ _
  refine ⟨first, second, hpieces, ?_, ?_, ?_, ?_, ?_⟩
  · norm_num [hdash₀, he₀, hs₀, d]
  · norm_num [hdash]
  · rw [hmap, List.head?_map, hroute.head, Option.map_some, hstart]
  · rw [hmap, ← hcorner]
    exact List.mem_map_of_mem (hroute.visits 5 hvertex (by norm_num) (by norm_num))
  · rw [hmap, List.getLast?_map, hroute.last, Option.map_some, hend]

end GrowthCurve.Plot
