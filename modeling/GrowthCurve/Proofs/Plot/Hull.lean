import Mathlib
import GrowthCurve.Plot.Axis
import GrowthCurve.Proofs.Extended

/-!
# Axes around the finite points

An axis goes from the least to the greatest coordinate of the finite points,
with headroom on both sides. A point that is not finite in one coordinate counts
for neither axis, and nothing else about the points matters: not their order and
not how often one of them is given.
-/

namespace GrowthCurve.Plot

open scoped Exact

/-! ## Finite points -/

section Points

variable {K : Type}

/-- The numbers of a point, if both coordinates are finite. -/
def exactPoint? : Extended K × Extended K → Option (K × K)
  | (.finite a, .finite b) => some (a, b)
  | _ => none

def exactPoints (points : List (Extended K × Extended K)) : List (K × K) :=
  points.filterMap exactPoint?

/-- A point with two finite coordinates. -/
def finitePoint : K × K → Extended K × Extended K :=
  Prod.map .finite .finite

theorem exactPoint?_eq_some_iff {p : Extended K × Extended K} {q : K × K} :
    exactPoint? p = some q ↔ p = finitePoint q := by
  obtain ⟨x, y⟩ := p
  cases x <;> cases y <;> simp [exactPoint?, finitePoint, Prod.ext_iff]

/-- The points of a list that have two finite coordinates. -/
def shown (points : List (Extended K × Extended K)) : Set (K × K) :=
  {q | finitePoint q ∈ points}

theorem mem_exactPoints {points : List (Extended K × Extended K)} {q : K × K} :
    q ∈ exactPoints points ↔ q ∈ shown points := by
  unfold exactPoints shown
  simp [List.mem_filterMap, exactPoint?_eq_some_iff]

end Points

variable {K : Type} [Field K] [LinearOrder K]

theorem finitePoints_eq (points : List (Extended K × Extended K)) :
    finitePoints points = (exactPoints points).map finitePoint := by
  unfold finitePoints exactPoints
  induction points with
  | nil => rfl
  | cons p points ih =>
      obtain ⟨x, y⟩ := p
      rw [List.filter_cons, List.filterMap_cons, ih]
      cases x <;> cases y <;> rfl

/-- Points that are all finite are those of their numbers. -/
theorem map_exactPoints {points : List (Extended K × Extended K)}
    (h : ∀ q ∈ points, Scalar.isFinite q.1 = true ∧ Scalar.isFinite q.2 = true) :
    (exactPoints points).map finitePoint = points := by
  rw [← finitePoints_eq]
  unfold finitePoints
  rw [List.filter_eq_self]
  simpa using h

/-! ## Hulls of numbers -/

namespace Range

/-- The range up to a further value. -/
def stretch {α : Type} [Scalar α] (r : Range α) (y : α) : Range α :=
  ⟨Scalar.min r.start y, Scalar.max r.stop y⟩

theorem hull_cons {α : Type} [Scalar α] (x : α) (xs : List α) :
    hull (x :: xs) = some (xs.foldl stretch ⟨x, x⟩) := rfl

/-- What is left free on each side of a hull: a part of its span, or of the
value if there is only one. -/
def headroom (lo hi : K) : K :=
  if lo = hi then max (|lo| / 20) (1 / 2) else (hi - lo) / 20

def around (lo hi : K) : Range K :=
  ⟨lo - headroom lo hi, hi + headroom lo hi⟩

theorem foldl_stretch (r : Range K) (xs : List K) :
    xs.foldl stretch r = ⟨xs.foldl min r.start, xs.foldl max r.stop⟩ := by
  induction xs generalizing r with
  | nil => rfl
  | cons y xs ih =>
      rw [List.foldl_cons, ih]
      simp [stretch]

variable [IsStrictOrderedRing K]

theorem headroom_pos {lo hi : K} (h : lo ≤ hi) : 0 < headroom lo hi := by
  unfold headroom
  split_ifs with heq
  · exact lt_max_of_lt_right one_half_pos
  · exact div_pos (sub_pos.mpr (lt_of_le_of_ne h heq)) (by norm_num)

theorem padded_some (lo hi : K) : padded (some ⟨lo, hi⟩) = around lo hi := by
  have hpart : (padding : K) = 1 / 20 := by
    unfold padding
    norm_num
  have hhalf : (OfScientific.ofScientific 5 true 1 : K) = 1 / 2 := by norm_num
  unfold padded around headroom
  simp only [Exact.same_eq, decide_eq_true_eq, Exact.magnitude_eq, Exact.max_eq, hpart]
  split_ifs with heq
  · rw [mul_one_div]
    exact congrArg (fun half => (⟨lo - max (|lo| / 20) half, hi + max (|lo| / 20) half⟩ : Range K))
      hhalf
  · rw [mul_one_div]

/-- An axis with values goes around the least and the greatest of them. -/
theorem exists_padded_hull {xs : List K} (hxs : xs ≠ []) :
    ∃ lo hi, IsLeast {x | x ∈ xs} lo ∧ IsGreatest {x | x ∈ xs} hi ∧
      padded (hull xs) = around lo hi := by
  cases xs with
  | nil => exact absurd rfl hxs
  | cons x xs =>
      refine ⟨xs.foldl min x, xs.foldl max x, Exact.isLeast_foldl_min x xs,
        Exact.isGreatest_foldl_max x xs, ?_⟩
      rw [hull_cons, foldl_stretch, padded_some]

theorem mem_padded_hull {xs : List K} {x : K} (hx : x ∈ xs) :
    x ∈ Set.Ioo (padded (hull xs)).start (padded (hull xs)).stop := by
  obtain ⟨lo, hi, hleast, hgreatest, hrange⟩ := exists_padded_hull (List.ne_nil_of_mem hx)
  have hroom := headroom_pos (hgreatest.2 hleast.1)
  rw [hrange]
  exact ⟨(sub_lt_self lo hroom).trans_le (hleast.2 hx),
    (hgreatest.2 hx).trans_lt (lt_add_of_pos_right hi hroom)⟩

/-- Neither order nor repetitions of the values matter. -/
theorem padded_hull_congr {xs ys : List K} (h : ∀ x, x ∈ xs ↔ x ∈ ys) :
    padded (hull xs) = padded (hull ys) := by
  cases xs with
  | nil =>
      have hys : ys = [] := List.eq_nil_iff_forall_not_mem.mpr fun y hy =>
        absurd ((h y).mpr hy) List.not_mem_nil
      rw [hys]
  | cons x xs =>
      have hys : ys ≠ [] := List.ne_nil_of_mem ((h x).mp List.mem_cons_self)
      obtain ⟨lo, hi, hleast, hgreatest, hrange⟩ := exists_padded_hull (List.cons_ne_nil x xs)
      obtain ⟨lo', hi', hleast', hgreatest', hrange'⟩ := exists_padded_hull hys
      have hsame : {z | z ∈ x :: xs} = {z | z ∈ ys} := Set.ext h
      rw [hsame] at hleast hgreatest
      rw [hrange, hrange', hleast.unique hleast', hgreatest.unique hgreatest']

end Range

/-! ## Axes of extended points -/

def Range.map {α β : Type} (f : α → β) (r : Range α) : Range β :=
  ⟨f r.start, f r.stop⟩

theorem hull_map_finite (xs : List K) :
    Range.hull (xs.map Extended.finite) = (Range.hull xs).map (Range.map .finite) := by
  cases xs with
  | nil => rfl
  | cons x xs =>
      have hstep : ∀ (r : Range K) (y : K),
          (r.map Extended.finite).stretch (.finite y) = (r.stretch y).map .finite := by
        simp [Range.stretch, Range.map]
      have hinit : (⟨.finite x, .finite x⟩ : Range (Extended K)) = Range.map .finite ⟨x, x⟩ := rfl
      rw [List.map_cons, Range.hull_cons, Range.hull_cons, Option.map_some, List.foldl_map, hinit]
      exact congrArg some (List.foldl_hom (Range.map Extended.finite) hstep)

theorem padded_map_finite (r : Option (Range K)) :
    Range.padded (r.map (Range.map Extended.finite)) = (Range.padded r).map .finite := by
  have hpart : (Range.padding : Extended K) = .finite Range.padding := rfl
  have hhalf : (OfScientific.ofScientific 5 true 1 : Extended K) =
      .finite (OfScientific.ofScientific 5 true 1) := rfl
  cases r with
  | none => simp [Range.padded, Range.map]
  | some r =>
      by_cases heq : r.start = r.stop
      · simp [Range.padded, Range.map, heq, hpart, hhalf]
      · simp [Range.padded, Range.map, heq, hpart]

/-- The axes of extended points are those of the finite ones among them. -/
theorem axisRanges_eq (points : List (Extended K × Extended K)) :
    axisRanges points =
      ((Range.padded (Range.hull ((exactPoints points).map Prod.fst))).map .finite,
        (Range.padded (Range.hull ((exactPoints points).map Prod.snd))).map .finite) := by
  have hfst : ((exactPoints points).map finitePoint).map Prod.fst =
      ((exactPoints points).map Prod.fst).map Extended.finite := by
    rw [List.map_map, List.map_map]
    rfl
  have hsnd : ((exactPoints points).map finitePoint).map Prod.snd =
      ((exactPoints points).map Prod.snd).map Extended.finite := by
    rw [List.map_map, List.map_map]
    rfl
  unfold axisRanges
  simp only [finitePoints_eq, hfst, hsnd, hull_map_finite, padded_map_finite]

/-- A range from the least to the greatest of some values, with headroom on both
sides. -/
def PaddedHull (values : Set K) (r : Range (Extended K)) : Prop :=
  ∃ lo hi, IsLeast values lo ∧ IsGreatest values hi ∧
    r = ⟨.finite (lo - Range.headroom lo hi), .finite (hi + Range.headroom lo hi)⟩ ∧
    lo - Range.headroom lo hi < lo ∧ lo ≤ hi ∧ hi < hi + Range.headroom lo hi

variable [IsStrictOrderedRing K] {points : List (Extended K × Extended K)}

/-- One axis, whichever coordinate it shows. -/
theorem paddedHull_coordinate (coordinate : K × K → K) (h : (shown points).Nonempty) :
    PaddedHull (coordinate '' shown points)
      ((Range.padded (Range.hull ((exactPoints points).map coordinate))).map .finite) := by
  obtain ⟨q, hq⟩ := h
  have hvalues : {x | x ∈ (exactPoints points).map coordinate} = coordinate '' shown points := by
    ext x
    simp [mem_exactPoints]
  have hsome : (exactPoints points).map coordinate ≠ [] :=
    List.ne_nil_of_mem (List.mem_map_of_mem (mem_exactPoints.mpr hq))
  obtain ⟨lo, hi, hleast, hgreatest, hrange⟩ := Range.exists_padded_hull hsome
  rw [hvalues] at hleast hgreatest
  have hle : lo ≤ hi := hgreatest.2 hleast.1
  have hroom := Range.headroom_pos hle
  exact ⟨lo, hi, hleast, hgreatest, congrArg (Range.map Extended.finite) hrange,
    sub_lt_self lo hroom, hle, lt_add_of_pos_right hi hroom⟩

/-- **Axes go around the finite points**: two lists with the same finite points have the
same axes, whatever else is in them, in whatever order and how often. Without a finite
point both axes go from zero to one; otherwise each of them is the padded hull of its
coordinates, with every one of them strictly inside. -/
theorem axes_around_finite_points (points : List (Extended K × Extended K)) :
    (∀ points', shown points' = shown points → axisRanges points' = axisRanges points) ∧
    (shown points = ∅ →
      axisRanges points = (⟨.finite 0, .finite 1⟩, ⟨.finite 0, .finite 1⟩)) ∧
    ((shown points).Nonempty →
      PaddedHull (Prod.fst '' shown points) (axisRanges points).1 ∧
      PaddedHull (Prod.snd '' shown points) (axisRanges points).2) := by
  refine ⟨?_, ?_, ?_⟩
  · intro points' hsame
    have hcoordinate : ∀ coordinate : K × K → K,
        Range.padded (Range.hull ((exactPoints points').map coordinate)) =
          Range.padded (Range.hull ((exactPoints points).map coordinate)) := by
      intro coordinate
      apply Range.padded_hull_congr
      simp [mem_exactPoints, hsame]
    rw [axisRanges_eq, axisRanges_eq, hcoordinate, hcoordinate]
  · intro hempty
    have hnone : exactPoints points = [] := List.eq_nil_iff_forall_not_mem.mpr fun q hq =>
      Set.eq_empty_iff_forall_notMem.mp hempty q (mem_exactPoints.mp hq)
    rw [axisRanges_eq, hnone]
    simp [Range.hull, Range.padded, Range.map]
  · intro h
    rw [axisRanges_eq]
    exact ⟨paddedHull_coordinate Prod.fst h, paddedHull_coordinate Prod.snd h⟩

/-- The point without an abscissa does not raise the second axis, and a flat
line is put into the middle of it. -/
theorem axes_around_finite_points_with_nan :
    axisRanges [(Extended.nan, Extended.finite (7 : ℚ)), finitePoint (4, 5), finitePoint (2, 5),
        finitePoint (4, 5)] =
      (⟨.finite (19 / 10), .finite (41 / 10)⟩, ⟨.finite (9 / 2), .finite (11 / 2)⟩) ∧
    axisRanges [(Extended.nan, Extended.finite (7 : ℚ))] =
      (⟨.finite 0, .finite 1⟩, ⟨.finite 0, .finite 1⟩) := by
  have hshown : shown [finitePoint (2, 5), finitePoint (4, (5 : ℚ))] = {(2, 5), (4, 5)} := by
    ext q
    simp [← mem_exactPoints, exactPoints, exactPoint?, finitePoint]
  have hpair : ∀ {a b : ℚ} {r : Range (Extended ℚ)}, PaddedHull {a, b} r →
      r = (Range.around (min a b) (max a b)).map .finite := by
    rintro a b r ⟨lo, hi, hleast, hgreatest, rfl, -⟩
    rw [hleast.unique isLeast_pair, hgreatest.unique isGreatest_pair]
    rfl
  obtain ⟨hsame, -, haxes⟩ :=
    axes_around_finite_points [finitePoint (2, 5), finitePoint (4, (5 : ℚ))]
  obtain ⟨hx, hy⟩ := haxes (by simp [hshown])
  rw [hshown, Set.image_pair] at hx hy
  constructor
  · rw [hsame _ ?_]
    · refine Prod.ext ((hpair hx).trans ?_) ((hpair hy).trans ?_)
      · norm_num [Range.around, Range.headroom, Range.map]
      · norm_num [Range.around, Range.headroom, Range.map]
    · rw [hshown]
      ext q
      simp only [← mem_exactPoints, exactPoints, exactPoint?, finitePoint, List.filterMap_cons,
        Prod.map_apply, List.filterMap_nil, List.mem_cons, List.not_mem_nil, or_false,
        Set.mem_insert_iff, Set.mem_singleton_iff]
      tauto
  · apply (axes_around_finite_points _).2.1
    ext q
    simp [← mem_exactPoints, exactPoints, exactPoint?]

end GrowthCurve.Plot
