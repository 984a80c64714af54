import Mathlib
import GrowthCurve.Plot.Dash
import GrowthCurve.Proofs.Exact

/-!
# Polylines by arc length

The independent view of a dashed curve: a polyline has a length in units of the
spans, a point at every arc length, and its vertices stand at known arc lengths.
A part of it is traced by a list of arc lengths that goes from the beginning to
the end of the part, in order, over all vertices in between.
-/

namespace GrowthCurve.Plot

open scoped Exact

/-! ## Segments -/

@[simp] theorem between_zero (a b : ℝ × ℝ) : between a b 0 = a := by
  simp [between]

theorem between_one (a b : ℝ × ℝ) : between a b 1 = b := by
  simp [between]

/-- The points between two points of a segment are on the segment. -/
theorem between_between (a b : ℝ × ℝ) (t u w : ℝ) :
    between (between a b t) (between a b u) w = between a b (t + (u - t) * w) := by
  unfold between
  ext <;> ring

namespace DashPattern

variable (d : DashPattern ℝ)

theorem unit_pos (span : ℝ) : 0 < unit span := by
  unfold unit
  simp only [Exact.ofNat_eq, Exact.less_eq, decide_eq_true_eq, Nat.cast_zero, Nat.cast_one]
  split_ifs with hspan
  · exact hspan
  · exact one_pos

theorem distance_eq (a b : ℝ × ℝ) :
    d.distance a b =
      √(((b.1 - a.1) / unit d.spans.1) ^ 2 + ((b.2 - a.2) / unit d.spans.2) ^ 2) :=
  Exact.length_eq_sqrt _ _

theorem distance_nonneg (a b : ℝ × ℝ) : 0 ≤ d.distance a b := by
  rw [distance_eq]
  exact Real.sqrt_nonneg _

theorem eq_of_distance_eq_zero {a b : ℝ × ℝ} (h : d.distance a b = 0) : a = b := by
  rw [distance_eq, Real.sqrt_eq_zero (by positivity)] at h
  have hx : ((b.1 - a.1) / unit d.spans.1) ^ 2 = 0 := by
    linarith [sq_nonneg ((b.1 - a.1) / unit d.spans.1), sq_nonneg ((b.2 - a.2) / unit d.spans.2)]
  have hy : ((b.2 - a.2) / unit d.spans.2) ^ 2 = 0 := by
    linarith [sq_nonneg ((b.1 - a.1) / unit d.spans.1), sq_nonneg ((b.2 - a.2) / unit d.spans.2)]
  have hux := (unit_pos d.spans.1).ne'
  have huy := (unit_pos d.spans.2).ne'
  simp only [pow_eq_zero_iff two_ne_zero, div_eq_zero_iff, hux, huy, or_false] at hx hy
  exact Prod.ext (by linarith) (by linarith)

/-- Distances along a segment are fractions of its length. -/
theorem distance_between (a b : ℝ × ℝ) {t u : ℝ} (h : t ≤ u) :
    d.distance (between a b t) (between a b u) = (u - t) * d.distance a b := by
  have hfraction : 0 ≤ u - t := sub_nonneg.mpr h
  have hsquares : ((between a b u).1 - (between a b t).1) / unit d.spans.1 =
      (u - t) * ((b.1 - a.1) / unit d.spans.1) ∧
      ((between a b u).2 - (between a b t).2) / unit d.spans.2 =
      (u - t) * ((b.2 - a.2) / unit d.spans.2) := by
    constructor <;> (simp only [between]; ring)
  rw [distance_eq, distance_eq, hsquares.1, hsquares.2, mul_pow, mul_pow, ← mul_add,
    Real.sqrt_mul (sq_nonneg _), Real.sqrt_sq hfraction]

/-! ## Lengths, points and vertices -/

/-- The length of a polyline in units of the spans. -/
noncomputable def pathLength : List (ℝ × ℝ) → ℝ
  | a :: b :: rest => d.distance a b + pathLength (b :: rest)
  | _ => 0

/-- The point of a polyline at an arc length. -/
noncomputable def pointAt : List (ℝ × ℝ) → ℝ → ℝ × ℝ
  | a :: b :: rest, s =>
    if s ≤ d.distance a b then between a b (s / d.distance a b)
    else pointAt (b :: rest) (s - d.distance a b)
  | [a], _ => a
  | [], _ => (0, 0)

/-- The arc lengths of the vertices of a polyline that begins at a given one. -/
noncomputable def stations : ℝ → List (ℝ × ℝ) → List ℝ
  | s, a :: b :: rest => s :: stations (s + d.distance a b) (b :: rest)
  | s, [_] => [s]
  | _, [] => []

theorem pathLength_nonneg (points : List (ℝ × ℝ)) : 0 ≤ d.pathLength points := by
  induction points with
  | nil => exact le_refl _
  | cons a rest ih =>
      cases rest with
      | nil => exact le_refl _
      | cons b rest => exact add_nonneg (d.distance_nonneg a b) ih

@[simp] theorem pointAt_zero (a : ℝ × ℝ) (rest : List (ℝ × ℝ)) :
    d.pointAt (a :: rest) 0 = a := by
  cases rest with
  | nil => rfl
  | cons b rest => simp [pointAt, d.distance_nonneg a b]

theorem pointAt_of_le {a b : ℝ × ℝ} {rest : List (ℝ × ℝ)} {s : ℝ} (h : s ≤ d.distance a b) :
    d.pointAt (a :: b :: rest) s = between a b (s / d.distance a b) := by
  rw [pointAt, if_pos h]

theorem pointAt_distance (a b : ℝ × ℝ) (rest : List (ℝ × ℝ)) :
    d.pointAt (a :: b :: rest) (d.distance a b) = b := by
  rw [d.pointAt_of_le (le_refl _)]
  by_cases hzero : d.distance a b = 0
  · rw [hzero, div_zero, between_zero]
    exact d.eq_of_distance_eq_zero hzero
  · rw [div_self hzero, between_one]

/-- Behind its first segment a polyline is the rest of it. -/
theorem pointAt_add {a b : ℝ × ℝ} {rest : List (ℝ × ℝ)} {s : ℝ} (h : 0 ≤ s) :
    d.pointAt (a :: b :: rest) (d.distance a b + s) = d.pointAt (b :: rest) s := by
  rcases h.eq_or_lt with rfl | hpos
  · rw [add_zero, pointAt_distance, pointAt_zero]
  · have hbehind : ¬ d.distance a b + s ≤ d.distance a b := by linarith
    rw [pointAt, if_neg hbehind, add_sub_cancel_left]

theorem le_of_mem_stations {points : List (ℝ × ℝ)} {s v : ℝ} (h : v ∈ d.stations s points) :
    s ≤ v := by
  induction points generalizing s with
  | nil => simp [stations] at h
  | cons a rest ih =>
      cases rest with
      | nil => simp_all [stations]
      | cons b rest =>
          rcases List.mem_cons.mp h with rfl | hrest
          · exact le_refl _
          · have hlater := ih hrest
            linarith [d.distance_nonneg a b]

theorem stations_add (s t : ℝ) (points : List (ℝ × ℝ)) :
    d.stations (s + t) points = (d.stations t points).map (s + ·) := by
  induction points generalizing t with
  | nil => rfl
  | cons a rest ih =>
      cases rest with
      | nil => rfl
      | cons b rest => simp [stations, add_assoc, ih]

theorem mem_stations_head (s : ℝ) (a : ℝ × ℝ) (rest : List (ℝ × ℝ)) :
    s ∈ d.stations s (a :: rest) := by
  cases rest <;> simp [stations]

theorem distance_mem_stations (a b : ℝ × ℝ) (rest : List (ℝ × ℝ)) :
    d.distance a b ∈ d.stations 0 (a :: b :: rest) := by
  apply List.mem_cons_of_mem
  rw [zero_add]
  exact d.mem_stations_head _ b rest

/-- The vertices behind the first segment come after all of it. -/
theorem add_mem_stations {a b : ℝ × ℝ} {rest : List (ℝ × ℝ)} {v : ℝ}
    (h : v ∈ d.stations 0 (b :: rest)) :
    d.distance a b + v ∈ d.stations 0 (a :: b :: rest) := by
  apply List.mem_cons_of_mem
  rw [zero_add, ← add_zero (d.distance a b), stations_add, add_zero]
  exact List.mem_map_of_mem h

/-- Where no vertex comes in between, a polyline follows a segment. -/
theorem exists_segment {points : List (ℝ × ℝ)} {s e : ℝ} (hs : 0 ≤ s) (hse : s < e)
    (he : e ≤ d.pathLength points) (hclear : ∀ v ∈ d.stations 0 points, v ≤ s ∨ e ≤ v) :
    ∃ a b offset, 0 < d.distance a b ∧
      ∀ t, s ≤ t → t ≤ e → d.pointAt points t = between a b ((t - offset) / d.distance a b) := by
  induction points generalizing s e with
  | nil => exact absurd he (not_le.mpr (lt_of_le_of_lt hs hse))
  | cons a rest ih =>
      cases rest with
      | nil => exact absurd he (not_le.mpr (lt_of_le_of_lt hs hse))
      | cons b rest =>
          by_cases hfirst : e ≤ d.distance a b
          · refine ⟨a, b, 0, by linarith, ?_⟩
            intro t _ hte
            rw [d.pointAt_of_le (hte.trans hfirst), sub_zero]
          · have hbehind : d.distance a b ≤ s :=
              (hclear _ (d.distance_mem_stations a b rest)).resolve_right hfirst
            have hlength : e - d.distance a b ≤ d.pathLength (b :: rest) := by
              have htotal : d.pathLength (a :: b :: rest) =
                d.distance a b + d.pathLength (b :: rest) := rfl
              linarith
            have hclear' : ∀ v ∈ d.stations 0 (b :: rest),
                v ≤ s - d.distance a b ∨ e - d.distance a b ≤ v := by
              intro v hv
              rcases hclear _ (d.add_mem_stations hv) with h | h
              · exact Or.inl (by linarith)
              · exact Or.inr (by linarith)
            obtain ⟨a', b', offset, hpos, hpoint⟩ :=
              ih (by linarith) (by linarith) hlength hclear'
            refine ⟨a', b', d.distance a b + offset, hpos, ?_⟩
            intro t hst hte
            have hrest : 0 ≤ t - d.distance a b := by linarith
            rw [show t = d.distance a b + (t - d.distance a b) by ring, d.pointAt_add hrest,
              hpoint _ (by linarith) (by linarith)]
            congr 2
            ring

theorem distance_pointAt {points : List (ℝ × ℝ)} {s e : ℝ} (hs : 0 ≤ s) (hse : s ≤ e)
    (he : e ≤ d.pathLength points) (hclear : ∀ v ∈ d.stations 0 points, v ≤ s ∨ e ≤ v) :
    d.distance (d.pointAt points s) (d.pointAt points e) = e - s := by
  rcases hse.eq_or_lt with rfl | hlt
  · simp [distance_eq]
  · obtain ⟨a, b, offset, hpos, hpoint⟩ := d.exists_segment hs hlt he hclear
    have hfractions : (s - offset) / d.distance a b ≤ (e - offset) / d.distance a b := by
      gcongr
    rw [hpoint s (le_refl _) hse, hpoint e hse (le_refl _), d.distance_between a b hfractions]
    field_simp
    ring

theorem pointAt_between {points : List (ℝ × ℝ)} {s e t : ℝ} (hs : 0 ≤ s) (hse : s < e)
    (he : e ≤ d.pathLength points) (hclear : ∀ v ∈ d.stations 0 points, v ≤ s ∨ e ≤ v)
    (hst : s ≤ t) (hte : t ≤ e) :
    between (d.pointAt points s) (d.pointAt points e) ((t - s) / (e - s)) =
      d.pointAt points t := by
  obtain ⟨a, b, offset, hpos, hpoint⟩ := d.exists_segment hs hse he hclear
  have hlength : e - s ≠ 0 := (sub_pos.mpr hse).ne'
  rw [hpoint s (le_refl _) hse.le, hpoint e hse.le (le_refl _), hpoint t hst hte,
    between_between]
  congr 1
  field_simp
  ring

/-! ## Parts of a polyline -/

/-- The arc lengths that are passed on the way from one to another: the two
ends, and all stations in between in their order. -/
structure Route (stations : List ℝ) (a b : ℝ) (route : List ℝ) : Prop where
  head : route.head? = some a
  last : route.getLast? = some b
  sorted : route.Pairwise (· ≤ ·)
  visits : ∀ v ∈ stations, a < v → v < b → v ∈ route
  only : ∀ s ∈ route, s = a ∨ s = b ∨ s ∈ stations

theorem Route.le_last {V route : List ℝ} {a b s : ℝ} (h : Route V a b route) (hs : s ∈ route) :
    s ≤ b := by
  obtain ⟨front, rfl⟩ := List.getLast?_eq_some_iff.mp h.last
  rcases List.mem_append.mp hs with hfront | hlast
  · exact (List.pairwise_append.mp h.sorted).2.2 s hfront b (by simp)
  · exact (List.mem_singleton.mp hlast).le

/-- A route goes on from its second arc length, and jumps over no station. -/
theorem Route.step {V route : List ℝ} {s t b : ℝ} (h : Route V s b (s :: t :: route)) :
    s ≤ t ∧ (∀ v ∈ V, v ≤ s ∨ t ≤ v) ∧ Route V t b (t :: route) := by
  obtain ⟨hfirst, hsorted⟩ := List.pairwise_cons.mp h.sorted
  have hst : s ≤ t := hfirst t List.mem_cons_self
  have hlater : ∀ r ∈ t :: route, t ≤ r := by
    intro r hr
    rcases List.mem_cons.mp hr with rfl | hr
    · exact le_refl _
    · exact (List.pairwise_cons.mp hsorted).1 r hr
  have hpassed : ∀ v ∈ V, s < v → v < b → v ∈ t :: route := by
    intro v hv hsv hvb
    exact (List.mem_cons.mp (h.visits v hv hsv hvb)).resolve_left hsv.ne'
  refine ⟨hst, ?_, rfl, ?_, hsorted, ?_, ?_⟩
  · intro v hv
    by_contra hbetween
    obtain ⟨hsv, hvt⟩ := not_or.mp hbetween
    have htb : t ≤ b := h.le_last (by simp)
    have hmem := hpassed v hv (not_le.mp hsv) (lt_of_lt_of_le (not_le.mp hvt) htb)
    exact hvt (hlater v hmem)
  · simpa using h.last
  · intro v hv htv hvb
    exact hpassed v hv (lt_of_le_of_lt hst htv) hvb
  · intro r hr
    rcases h.only r (List.mem_cons_of_mem _ hr) with rfl | hend
    · exact Or.inl (le_antisymm hst (hlater r hr))
    · exact Or.inr hend

theorem Route.single (V : List ℝ) (a : ℝ) : Route V a a [a] := by
  refine ⟨rfl, rfl, List.pairwise_singleton _ _, ?_, ?_⟩
  · intro v _ hav hva
    exact absurd hav (not_lt.mpr hva.le)
  · intro s hs
    exact Or.inl (List.mem_singleton.mp hs)

/-- A route goes on to an arc length with no station in between, if its end may
lie inside. -/
theorem Route.extend {V route : List ℝ} {a s t : ℝ} (h : Route V a s route)
    (hend : s = a ∨ s ∈ V) (hst : s ≤ t) (hclear : ∀ v ∈ V, v ≤ s ∨ t ≤ v) :
    Route V a t (route ++ [t]) := by
  refine ⟨?_, by simp, ?_, ?_, ?_⟩
  · rw [List.head?_append, h.head]
    rfl
  · refine List.pairwise_append.mpr ⟨h.sorted, List.pairwise_singleton _ _, ?_⟩
    intro r hr u hu
    obtain rfl := List.mem_singleton.mp hu
    exact (h.le_last hr).trans hst
  · intro v hv hav hvt
    apply List.mem_append_left
    rcases ((hclear v hv).resolve_right (not_le.mpr hvt)).eq_or_lt with rfl | hvs
    · exact List.mem_of_getLast? h.last
    · exact h.visits v hv hav hvs
  · intro r hr
    rcases List.mem_append.mp hr with hr | hr
    · rcases h.only r hr with rfl | rfl | hr
      · exact Or.inl rfl
      · exact hend.imp id Or.inr
      · exact Or.inr (Or.inr hr)
    · exact Or.inr (Or.inl (List.mem_singleton.mp hr))

/-- A list of points traces the part of a polyline between two arc lengths. -/
def Traces (points : List (ℝ × ℝ)) (a b : ℝ) (piece : List (ℝ × ℝ)) : Prop :=
  ∃ route, Route (d.stations 0 points) a b route ∧ piece = route.map (d.pointAt points)

/-- A piece is as long as the part that it traces. -/
theorem pathLength_of_traces {points piece : List (ℝ × ℝ)} {a b : ℝ} (ha : 0 ≤ a)
    (hb : b ≤ d.pathLength points) (h : d.Traces points a b piece) :
    d.pathLength piece = b - a := by
  obtain ⟨route, hroute, rfl⟩ := h
  induction route generalizing a with
  | nil => simpa using hroute.head
  | cons s route ih =>
      obtain rfl : s = a := by simpa using hroute.head
      cases route with
      | nil =>
          obtain rfl : s = b := by simpa using hroute.last
          simp [pathLength]
      | cons t route =>
          obtain ⟨hst, hclear, htail⟩ := hroute.step
          have htb : t ≤ b := hroute.le_last (by simp)
          have hstep := d.distance_pointAt ha hst (htb.trans hb) hclear
          have hrest := ih (ha.trans hst) htail
          show d.distance (d.pointAt points s) (d.pointAt points t) +
            d.pathLength ((t :: route).map (d.pointAt points)) = b - s
          rw [hstep, hrest]
          ring

/-- A part that has a length has two ends. -/
theorem two_le_length_of_traces {points piece : List (ℝ × ℝ)} {a b : ℝ} (hab : a < b)
    (h : d.Traces points a b piece) : 2 ≤ piece.length := by
  obtain ⟨route, hroute, rfl⟩ := h
  rw [List.length_map]
  match route, hroute with
  | [], hroute => simpa using hroute.head
  | [s], hroute =>
      obtain rfl : s = a := by simpa using hroute.head
      obtain rfl : s = b := by simpa using hroute.last
      exact absurd hab (lt_irrefl _)
  | _ :: _ :: _, _ => simp

/-! ## The rest of a polyline -/

/-- From an arc length on the polyline consists of these vertices. -/
structure Remains (points : List (ℝ × ℝ)) (s : ℝ) (rest : List (ℝ × ℝ)) : Prop where
  nonneg : 0 ≤ s
  length : s + d.pathLength rest = d.pathLength points
  point : ∀ t, 0 ≤ t → d.pointAt points (s + t) = d.pointAt rest t
  station : ∀ v ∈ d.stations 0 points, v ≤ s ∨ v ∈ d.stations s rest
  included : ∀ v ∈ d.stations s rest, v ∈ d.stations 0 points

theorem Remains.refl (points : List (ℝ × ℝ)) : d.Remains points 0 points := by
  refine ⟨le_refl _, by rw [zero_add], ?_, ?_, ?_⟩
  · intro t _
    rw [zero_add]
  · intro v hv
    exact Or.inr hv
  · intro v hv
    exact hv

variable {d} {points rest : List (ℝ × ℝ)} {a b : ℝ × ℝ} {s : ℝ}

theorem Remains.pointAt_eq (h : d.Remains points s (a :: rest)) : d.pointAt points s = a := by
  have hpoint := h.point 0 (le_refl _)
  rwa [add_zero, pointAt_zero] at hpoint

theorem Remains.tail (h : d.Remains points s (a :: b :: rest)) :
    d.Remains points (s + d.distance a b) (b :: rest) := by
  have hsegment := d.distance_nonneg a b
  refine ⟨add_nonneg h.nonneg hsegment, ?_, ?_, ?_, ?_⟩
  · rw [← h.length, add_assoc]
    rfl
  · intro t ht
    rw [add_assoc, h.point _ (add_nonneg hsegment ht), d.pointAt_add ht]
  · intro v hv
    rcases h.station v hv with hvs | hmem
    · exact Or.inl (hvs.trans (le_add_of_nonneg_right hsegment))
    · rcases List.mem_cons.mp hmem with rfl | hmem
      · exact Or.inl (le_add_of_nonneg_right hsegment)
      · exact Or.inr hmem
  · intro v hv
    exact h.included v (List.mem_cons_of_mem _ hv)

/-- No vertex comes in between two consecutive ones. -/
theorem Remains.clear (h : d.Remains points s (a :: b :: rest)) :
    ∀ v ∈ d.stations 0 points, v ≤ s ∨ s + d.distance a b ≤ v := by
  intro v hv
  rcases h.station v hv with hvs | hmem
  · exact Or.inl hvs
  · rcases List.mem_cons.mp hmem with rfl | hmem
    · exact Or.inl (le_refl _)
    · exact Or.inr (d.le_of_mem_stations hmem)

theorem Remains.le_length (h : d.Remains points s rest) : s ≤ d.pathLength points := by
  rw [← h.length]
  exact le_add_of_nonneg_right (d.pathLength_nonneg rest)

theorem Remains.mem_stations (h : d.Remains points s (a :: rest)) : s ∈ d.stations 0 points :=
  h.included s (d.mem_stations_head s a rest)

end DashPattern

end GrowthCurve.Plot
