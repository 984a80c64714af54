import Mathlib
import GrowthCurve.Proofs.Plot.Cuts
import GrowthCurve.Proofs.Plot.Drawing

/-!
# Points inside their axes

The axes of a panel cover its finite points. Between two points that they cover
a segment has a length of less than four, or one that is NaN, if the spans
overflow. Curves without infinite points are therefore drawn, whatever they look
like.
-/

namespace GrowthCurve.Plot

open GrowthCurve.Binary Float.Model UnpackedFloat

variable {x y : Float} {xs : List Float} {r : Range Float}

/-! ## Hulls -/

/-- A number between the ends of a range. -/
structure Range.Covers (r : Range Float) (x : Float) : Prop where
  low : r.start ≤ x
  high : x ≤ r.stop

theorem min_eq (hx : x.isNaN = false) : Scalar.min x y = if y < x then y else x := by
  have hself : Scalar.same x x = true := beq_iff.mpr ⟨hx, hx, rfl⟩
  unfold Scalar.min
  rw [hself, Bool.not_true, Bool.or_false]
  rfl

theorem min_le (hx : x.isNaN = false) (hy : y.isNaN = false) :
    Scalar.min x y ≤ x ∧ Scalar.min x y ≤ y := by
  rw [min_eq hx]
  split
  case isTrue h => exact ⟨Binary.le_of_lt h, le_self hy⟩
  case isFalse h => exact ⟨le_self hx, le_of_not_lt hy hx h⟩

theorem le_max_left (hx : x.isNaN = false) : x ≤ Scalar.max x y := by
  rw [Binary.max_eq hx]
  split
  case isTrue h => exact Binary.le_of_lt h
  case isFalse => exact le_self hx

theorem isFinite_min (hx : x.isFinite = true) (hy : y.isFinite = true) :
    (Scalar.min x y).isFinite = true := by
  rw [min_eq (isNaN_of_finite hx)]
  split
  · exact hy
  · exact hx

theorem isFinite_max (hx : x.isFinite = true) (hy : y.isFinite = true) :
    (Scalar.max x y).isFinite = true := by
  rw [Binary.max_eq (isNaN_of_finite hx)]
  split
  · exact hy
  · exact hx

/-- Its ends are finite. -/
structure Range.Finite (r : Range Float) : Prop where
  start : r.start.isFinite = true
  stop : r.stop.isFinite = true

theorem foldl_covers (hxs : ∀ x ∈ xs, x.isFinite = true) (hr : r.Finite) :
    (xs.foldl (fun r y => ⟨Scalar.min r.start y, Scalar.max r.stop y⟩) r).Finite ∧
    (∀ x, r.Covers x ∨ x ∈ xs →
      (xs.foldl (fun r y => ⟨Scalar.min r.start y, Scalar.max r.stop y⟩) r).Covers x) := by
  induction xs generalizing r with
  | nil => exact ⟨hr, fun x hx => hx.resolve_right List.not_mem_nil⟩
  | cons y ys ih =>
      obtain ⟨hy, hys⟩ := List.forall_mem_cons.mp hxs
      have hstart := min_le (isNaN_of_finite hr.start) (isNaN_of_finite hy)
      have hstop : r.stop ≤ Scalar.max r.stop y := le_max_left (isNaN_of_finite hr.stop)
      have hstop' := Binary.le_max_right (isNaN_of_finite hr.stop) (isNaN_of_finite hy)
      obtain ⟨hfinite, hcovers⟩ := ih (r := ⟨Scalar.min r.start y, Scalar.max r.stop y⟩) hys
        ⟨isFinite_min hr.start hy, isFinite_max hr.stop hy⟩
      refine ⟨hfinite, fun x hx => hcovers x ?_⟩
      rcases hx with hx | hx
      · exact .inl ⟨Binary.le_trans hstart.1 hx.low, Binary.le_trans hx.high hstop⟩
      · rcases List.mem_cons.mp hx with rfl | hx
        · exact .inl ⟨hstart.2, hstop'⟩
        · exact .inr hx

theorem hull_covers (hxs : ∀ x ∈ xs, x.isFinite = true) (hr : Range.hull xs = some r) :
    r.Finite ∧ ∀ x ∈ xs, r.Covers x := by
  cases xs with
  | nil => cases hr
  | cons x xs =>
      obtain rfl := Option.some.inj hr
      obtain ⟨hx, hxs⟩ := List.forall_mem_cons.mp hxs
      have hself := le_self (isNaN_of_finite hx)
      obtain ⟨hfinite, hcovers⟩ := foldl_covers (r := ⟨x, x⟩) hxs ⟨hx, hx⟩
      refine ⟨hfinite, fun y hy => hcovers y ?_⟩
      rcases List.mem_cons.mp hy with rfl | hy
      · exact .inl ⟨hself, hself⟩
      · exact .inr hy

/-! ## Headroom -/

theorem nonneg_max (x : Float) (hy : 0 ≤ y) : 0 ≤ Scalar.max x y := by
  cases hx : x.isNaN with
  | false => exact Binary.le_trans hy (Binary.le_max_right hx (isNaN_of_nonneg hy))
  | true =>
      have hself : Scalar.same x x = false := by
        refine Bool.eq_false_iff.mpr fun hsame => ?_
        rw [(beq_iff.mp hsame).1] at hx
        cases hx
      unfold Scalar.max
      rw [hself, Bool.not_false, Bool.or_true, if_pos rfl]
      exact hy

theorem sub_le_of_nonneg (hx : x.isFinite = true) (hstart : r.start.isFinite = true)
    (hle : r.start ≤ x) (hy : 0 ≤ y) : r.start - y ≤ x := by
  rcases nonneg_cases hy with hinfinite | ⟨hfinite, hvalue⟩
  · exact Binary.le_of_lt (infinite_lt (sub_infinite_of_isFinite hstart hinfinite) hx)
  · have hle := (le_iff_value hstart hx).mp hle
    exact (roundsTo_sub hstart hfinite).le (roundsTo_value hx) (by linarith)

theorem le_add_of_nonneg (hx : x.isFinite = true) (hstop : r.stop.isFinite = true)
    (hle : x ≤ r.stop) (hy : 0 ≤ y) : x ≤ r.stop + y := by
  rcases nonneg_cases hy with hinfinite | ⟨hfinite, hvalue⟩
  · exact le_infinite (isNaN_of_finite hx) (add_infinite_of_isFinite hstop hinfinite)
  · have hle := (le_iff_value hx hstop).mp hle
    exact (roundsTo_value hx).le (roundsTo_add hstop hfinite) (by linarith)

theorem nonneg_mul_padding (hx : 0 ≤ x) : 0 ≤ x * Range.padding := by
  have hpadding : (0 : Float) < Range.padding := by decide
  have hfinite : (Range.padding : Float).isFinite = true := by decide
  rcases nonneg_cases hx with hinfinite | ⟨hx, hvalue⟩
  · exact mul_nonneg_of_pos (infinite_pos hinfinite) hpadding
  · exact (roundsTo_mul hx hfinite).nonneg
      (mul_nonneg hvalue ((pos_iff_value hfinite).mp hpadding).le)

theorem Range.Covers.pad (hcovers : r.Covers x) (hfinite : r.Finite)
    (hx : x.isFinite = true) (hy : 0 ≤ y) : Range.Covers ⟨r.start - y, r.stop + y⟩ x :=
  ⟨sub_le_of_nonneg hx hfinite.start hcovers.low hy,
    le_add_of_nonneg hx hfinite.stop hcovers.high hy⟩

/-- With its headroom an axis still covers the numbers that it is made for. -/
theorem padded_covers (hxs : ∀ x ∈ xs, x.isFinite = true) (hx : x ∈ xs) :
    (Range.padded (Range.hull xs)).Covers x := by
  cases hhull : Range.hull xs with
  | none =>
      cases xs with
      | nil => cases hx
      | cons => cases hhull
  | some r =>
      obtain ⟨hfinite, hcovers⟩ := hull_covers hxs hhull
      have hcovers := hcovers x hx
      have hx := hxs x hx
      unfold Range.padded
      dsimp only
      split
      · exact hcovers.pad hfinite hx (nonneg_max _ (by decide))
      · have hle := (le_iff_value hfinite.start hfinite.stop).mp
          (Binary.le_trans hcovers.low hcovers.high)
        have hspan : 0 ≤ r.stop - r.start :=
          (roundsTo_sub hfinite.stop hfinite.start).nonneg (sub_nonneg.mpr hle)
        exact hcovers.pad hfinite hx (nonneg_mul_padding hspan)

/-! ## Segments between covered points -/

theorem start_cases (hx : x.isFinite = true) (h : r.Covers x) :
    r.start.isFinite = true ∨ r.start.toModel.unpack = .infinity .negative := by
  rcases isFinite_of_not_isNaN (le_iff.mp h.low).1 with hfinite | ⟨s, hinfinite⟩
  · exact .inl hfinite
  · cases s with
    | negative => exact .inr hinfinite
    | positive => exact absurd (lt_infinite hx hinfinite) (not_lt_of_le h.low)

theorem stop_cases (hx : x.isFinite = true) (h : r.Covers x) :
    r.stop.isFinite = true ∨ r.stop.toModel.unpack = .infinity .positive := by
  rcases isFinite_of_not_isNaN (le_iff.mp h.high).2.1 with hfinite | ⟨s, hinfinite⟩
  · exact .inl hfinite
  · cases s with
    | negative => exact absurd (infinite_lt hinfinite hx) (not_lt_of_le h.high)
    | positive => exact .inr hinfinite

/-- A range with an infinite end has an infinite span. -/
theorem span_of_infinite (hx : x.isFinite = true) (h : r.Covers x)
    (hends : ¬ (r.start.isFinite = true ∧ r.stop.isFinite = true)) :
    r.span.toModel.unpack = .infinity .positive := by
  unfold Range.span
  rcases start_cases hx h with hstart | hstart
  · rcases stop_cases hx h with hstop | hstop
    · exact absurd ⟨hstart, hstop⟩ hends
    · rw [infinite_sub_of_isFinite hstop hstart, hstop]
  · rcases stop_cases hx h with hstop | hstop
    · exact sub_infinite_of_isFinite hstop hstart
    · show (Float.Model.pack (UnpackedFloat.sub .binary64 _ _)).unpack = _
      rw [hstart, hstop]
      exact unpack_pack_infinity _

/-- The span is at least as large as every distance inside, or infinite. -/
theorem span_cases (hx : x.isFinite = true) (hy : y.isFinite = true) (hrx : r.Covers x)
    (hry : r.Covers y) :
    (r.span.isFinite = true ∧ (y - x).isFinite = true ∧ |value (y - x)| ≤ value r.span) ∨
      r.span.toModel.unpack = .infinity .positive := by
  by_cases hends : r.start.isFinite = true ∧ r.stop.isFinite = true
  · obtain ⟨hstart, hstop⟩ := hends
    have hlowx := (le_iff_value hstart hx).mp hrx.low
    have hlowy := (le_iff_value hstart hy).mp hry.low
    have hhighx := (le_iff_value hx hstop).mp hrx.high
    have hhighy := (le_iff_value hy hstop).mp hry.high
    have hspan : RoundsTo (value r.stop - value r.start) r.span := roundsTo_sub hstop hstart
    rcases nonneg_cases (hspan.nonneg (by linarith)) with hinfinite | ⟨hfinite, -⟩
    · exact .inr hinfinite
    · have hdistance : |value y - value x| ≤ value r.stop - value r.start := by
        rw [abs_le]
        constructor <;> linarith
      exact .inl ⟨hfinite, (roundsTo_sub hy hx).bounded (hspan.rounded hfinite) hdistance
        (lt_of_abs_lt (abs_value_lt hfinite))⟩
  · exact .inr (span_of_infinite hx hrx hends)

theorem unit_of_pos (h : 0 < x) : DashPattern.unit x = x :=
  if_pos h

/-- Measured by the span, every distance inside is at most one, or NaN. -/
theorem side_of_covers (hx : x.isFinite = true) (hy : y.isFinite = true) (hrx : r.Covers x)
    (hry : r.Covers y) :
    ((y - x) / DashPattern.unit r.span).isNaN = true ∨
      ((y - x) / DashPattern.unit r.span).isFinite = true ∧
        |value ((y - x) / DashPattern.unit r.span)| ≤ 1 := by
  rcases span_cases hx hy hrx hry with ⟨hspan, hdistance, hle⟩ | hinfinite
  · obtain ⟨hunit, hpos, hle⟩ : (DashPattern.unit r.span).isFinite = true ∧
        0 < value (DashPattern.unit r.span) ∧
        |value (y - x)| ≤ value (DashPattern.unit r.span) := by
      by_cases hpos : 0 < r.span
      · rw [unit_of_pos hpos]
        exact ⟨hspan, (pos_iff_value hspan).mp hpos, hle⟩
      · have hone : DashPattern.unit r.span = 1 := if_neg hpos
        rw [pos_iff_value hspan, not_lt] at hpos
        rw [hone, value_one]
        exact ⟨by decide, one_pos, by linarith⟩
    refine .inr ((roundsTo_div hdistance hunit hpos.ne').bounded rounded_one ?_
      (one_lt_zpow₀ one_lt_two (by decide)))
    rw [abs_div, abs_of_pos hpos]
    exact div_le_one_of_le₀ hle hpos.le
  · rw [unit_of_pos (infinite_pos hinfinite)]
    rcases isFinite_of_not_isNaN (roundsTo_sub hy hx).isNaN_eq_false with hfinite | ⟨s, hdistance⟩
    · obtain ⟨s, hzero⟩ := div_infinite_of_isFinite hfinite hinfinite
      have hvalue : value ((y - x) / r.span) = 0 := congrArg valueOf hzero
      refine .inr ⟨?_, ?_⟩
      · show ((y - x) / r.span).toModel.unpack.isFinite = true
        rw [hzero]
        rfl
      · rw [hvalue, abs_zero]
        exact zero_le_one
    · exact .inl (infinite_div_infinite hdistance hinfinite)

/-! ## Curves without infinite points -/

/-- A point with two finite coordinates inside both axes. -/
structure Inside (xRange yRange : Range Float) (q : Float × Float) : Prop where
  finite : q.1.isFinite = true ∧ q.2.isFinite = true
  covers : xRange.Covers q.1 ∧ yRange.Covers q.2

variable {xRange yRange : Range Float} {points : List (Float × Float)}

theorem mem_finitePoints {q : Float × Float} :
    q ∈ finitePoints points ↔ q ∈ points ∧ q.1.isFinite = true ∧ q.2.isFinite = true := by
  unfold finitePoints
  rw [List.mem_filter, Bool.and_eq_true]
  rfl

theorem inside_axisRanges {q : Float × Float} (hq : q ∈ points)
    (hfinite : q.1.isFinite = true ∧ q.2.isFinite = true) :
    Inside (axisRanges points).1 (axisRanges points).2 q := by
  have hmem := mem_finitePoints.mpr ⟨hq, hfinite⟩
  have hxs : ∀ x ∈ (finitePoints points).map Prod.fst, x.isFinite = true :=
    List.forall_mem_map.mpr fun q hq => (mem_finitePoints.mp hq).2.1
  have hys : ∀ y ∈ (finitePoints points).map Prod.snd, y.isFinite = true :=
    List.forall_mem_map.mpr fun q hq => (mem_finitePoints.mp hq).2.2
  exact ⟨hfinite, padded_covers hxs (List.mem_map_of_mem hmem),
    padded_covers hys (List.mem_map_of_mem hmem)⟩

theorem distance_of_inside {a b : Float × Float} (ha : Inside xRange yRange a)
    (hb : Inside xRange yRange b) :
    ((figureDashes (xRange.span, yRange.span)).distance a b).isNaN = true ∨
      Below 2 ((figureDashes (xRange.span, yRange.span)).distance a b) :=
  euclideanLength_of_sides
    (side_of_covers ha.finite.1 hb.finite.1 ha.covers.1 hb.covers.1)
    (side_of_covers ha.finite.2 hb.finite.2 ha.covers.2 hb.covers.2)

/-- Segments inside the axes are shorter than four. -/
theorem atMost_of_inside (hpoints : ∀ q ∈ points, Inside xRange yRange q) {l : Float}
    (hl : l ∈ (figureDashes (xRange.span, yRange.span)).measured points) : AtMost 1024 l := by
  obtain ⟨hnan, a, ha, b, hb, rfl⟩ := exists_of_mem_measured hl
  have hbelow := (distance_of_inside (hpoints a ha) (hpoints b hb)).resolve_left
    (by rw [hnan]; exact Bool.false_ne_true)
  have hnonneg := nonneg_of_mem_measured hl
  have hfinite := hbelow.isFinite
  refine ⟨hfinite, (nonneg_iff_value hfinite).mp hnonneg, ?_⟩
  have hlt := lt_of_abs_lt hbelow.abs_value_lt
  norm_num at hlt ⊢
  exact hlt.le

/-! ## Panels -/

/-- The dashes of the curves of a panel, whose axes cover its finite points. -/
def Panel.pattern (p : Panel Float) : DashPattern Float :=
  figureDashes ((axisRanges p.visible).1.span, (axisRanges p.visible).2.span)

variable {p : Panel Float} {panels : List (Panel Float)} {fuel : ℕ}

theorem Panel.dashesEnd_iff :
    p.DashesEnd fuel ↔ ∀ c ∈ p.curves, c.line = .dashed →
      (dashPieces p.pattern (fuel * c.visible.length) c.visible).isSome :=
  Iff.rfl

/-- No segment of a dashed curve is too long, or another one before it is NaN. -/
def Panel.Shortened (p : Panel Float) : Prop :=
  ∀ c ∈ p.curves, c.line = .dashed → ∀ l ∈ p.pattern.measured c.visible, l ≤ longest

theorem Panel.Shortened.dashesEnd (h : p.Shortened) : p.DashesEnd cutsEnough := by
  intro c hc hdashed
  exact dashPieces_cutsEnough (h c hc hdashed)

theorem Panel.shortened_of_dashesEnd (h : p.DashesEnd fuel) : p.Shortened := by
  intro c hc hdashed
  by_contra hlong
  have hends := Panel.dashesEnd_iff.mp h c hc hdashed
  unfold Panel.pattern at hends hlong
  rw [dashPieces_eq_none hlong] at hends
  cases hends

/-- Nothing that is drawn with dashes is infinite or NaN. -/
def Panel.FiniteDashes (p : Panel Float) : Prop :=
  ∀ c ∈ p.curves, c.line = .dashed →
    ∀ q ∈ c.visible, q.1.isFinite = true ∧ q.2.isFinite = true

theorem Panel.FiniteDashes.dashesEnd (h : p.FiniteDashes) : p.DashesEnd cutLimit := by
  intro c hc hdashed
  have hinside : ∀ q ∈ c.visible, Inside (axisRanges p.visible).1 (axisRanges p.visible).2 q :=
    fun q hq => inside_axisRanges (List.mem_flatMap.mpr ⟨c, hc, hq⟩) (h c hc hdashed q hq)
  have hfuel : (2 * 1024 + 2) * c.visible.length ≤ cutLimit * c.visible.length :=
    Nat.mul_le_mul_right _ (by decide)
  exact dashPieces_isSome (by decide) (fun l hl => atMost_of_inside hinside hl) hfuel

/-- The drawing comes to an end with some number of cuts, be it in a figure or not. -/
def DrawingEnds (panels : List (Panel Float)) (size : FigureSize) : Prop :=
  ∃ fuel, drawWith fuel panels size ≠ .error (.halted .endlessDashes)

theorem drawingEnds_of_shortened (hfault : panelsFault? panels = none)
    (h : ∀ p ∈ panels, p.Shortened) (size : FigureSize) : DrawingEnds panels size :=
  ⟨cutsEnough, drawWith_ne_endlessDashes hfault (fun p hp => (h p hp).dashesEnd) size⟩

theorem shortened_of_drawingEnds {size : FigureSize} (hfault : panelsFault? panels = none)
    (hfit : SizesFit size panels) (h : DrawingEnds panels size) :
    ∀ p ∈ panels, p.Shortened := by
  obtain ⟨fuel, hends⟩ := h
  have hdashes : ∀ p ∈ panels, p.DashesEnd fuel := by
    by_contra hendless
    exact hends (drawWith_of_not_dashesEnd hfault hfit hendless)
  exact fun p hp => Panel.shortened_of_dashesEnd (hdashes p hp)

theorem exists_drawWith_iff_shortened {size : FigureSize} (hfault : panelsFault? panels = none) :
    (∃ fuel figure, drawWith fuel panels size = .ok figure) ↔
      SizesFit size panels ∧ ∀ p ∈ panels, p.Shortened := by
  simp only [exists_drawWith_iff hfault]
  constructor
  · rintro ⟨fuel, hfit, hends⟩
    exact ⟨hfit, fun p hp => Panel.shortened_of_dashesEnd (hends p hp)⟩
  · rintro ⟨hfit, h⟩
    exact ⟨cutsEnough, hfit, fun p hp => (h p hp).dashesEnd⟩

/-- **When dashes end**: the dashes of a curve come to an end exactly if no segment
is longer than `2 ^ 48` spans before the first one whose length is NaN. If this
holds of all dashed curves of accepted panels, their drawing comes to an end, and
to a figure if the sizes fit; if the sizes fit and it does not hold, the drawing
has no end, however many cuts it may take. Points that are finite are enough for
it, and then the cuts that a drawing may take suffice. -/
theorem dashes_end_iff (spans : Float × Float) (points : List (Float × Float))
    (hfault : panelsFault? panels = none) (size : FigureSize) :
    ((∃ fuel, (dashPieces (figureDashes spans) fuel points).isSome) ↔
      ∀ l ∈ (figureDashes spans).measured points, l ≤ longest) ∧
    ((∃ fuel figure, drawWith fuel panels size = .ok figure) ↔
      SizesFit size panels ∧ ∀ p ∈ panels, p.Shortened) ∧
    ((∀ p ∈ panels, p.Shortened) → DrawingEnds panels size) ∧
    (SizesFit size panels → (DrawingEnds panels size ↔ ∀ p ∈ panels, p.Shortened)) ∧
    ((∀ p ∈ panels, p.FiniteDashes) → DrawingEnds panels size ∧
      (SizesFit size panels → ∃ figure, draw panels size = .ok figure)) := by
  refine ⟨⟨?_, ?_⟩, exists_drawWith_iff_shortened hfault, ?_, ?_, ?_⟩
  · rintro ⟨fuel, hends⟩
    by_contra hlong
    rw [dashPieces_eq_none hlong] at hends
    cases hends
  · exact fun h => ⟨_, dashPieces_cutsEnough h⟩
  · exact fun h => drawingEnds_of_shortened hfault h size
  · exact fun hfit => ⟨shortened_of_drawingEnds hfault hfit,
      fun h => drawingEnds_of_shortened hfault h size⟩
  · intro h
    have hends : ∀ p ∈ panels, p.DashesEnd cutLimit := fun p hp => (h p hp).dashesEnd
    exact ⟨⟨cutLimit, drawWith_ne_endlessDashes hfault hends size⟩,
      fun hfit => exists_draw hfault hfit hends⟩

/-- A panel with one dashed curve through the given ordinates at `1` and `2`. -/
def dashedPanel (y₁ y₂ : Float) : Panel Float :=
  ⟨"n", "T(n)", none, true, [⟨[1, 2], [y₁, y₂], .dashed, Colour.redTone, "fit", none⟩]⟩

theorem dashes_end_iff_two_panels :
    panelsFault? [dashedPanel 3 (-4)] = none ∧
    (∃ fuel, (dashPieces (figureDashes (1, 0)) fuel [(0, 1), (3, 5)]).isSome) ∧
    (∃ figure, draw [dashedPanel 3 (-4)] {} = .ok figure) ∧
    panelsFault? [dashedPanel 1 (1 / 0)] = none ∧
    ¬ DrawingEnds [dashedPanel 1 (1 / 0)] {} := by
  have hfault : panelsFault? [dashedPanel 3 (-4)] = none := by decide
  have hfault' : panelsFault? [dashedPanel 1 (1 / 0)] = none := by decide
  obtain ⟨hpieces, -, -, -, hfinite⟩ := dashes_end_iff (1, 0) [(0, 1), (3, 5)] hfault {}
  obtain ⟨-, -, -, hends, -⟩ := dashes_end_iff (1, 0) [(0, 1), (3, 5)] hfault' {}
  refine ⟨hfault, hpieces.mpr (by decide +kernel), ?_, hfault', ?_⟩
  · refine (hfinite ?_).2 (sizesFit_singleton {} rfl)
    unfold Panel.FiniteDashes
    decide
  · rw [hends (sizesFit_singleton {} rfl)]
    unfold Panel.Shortened
    decide +kernel

/-- A prediction that is infinite passes all checks, and the cuts never get there. -/
theorem dashes_without_end :
    (∀ fuel, dashPieces (figureDashes (1, 1)) fuel [(0, 0), (0, 1 / 0)] = none) ∧
    panelsFault? [dashedPanel 1 (1 / 0)] = none ∧
    ∀ fuel size, drawWith fuel [dashedPanel 1 (1 / 0)] size =
      .error (.halted .endlessDashes) := by
  have hfault : panelsFault? [dashedPanel 1 (1 / 0)] = none := by decide
  refine ⟨fun fuel => dashPieces_eq_none (by decide), hfault, ?_⟩
  intro fuel size
  refine drawWith_of_not_dashesEnd hfault (sizesFit_singleton size rfl) ?_
  intro hends
  have hshortened := Panel.shortened_of_dashesEnd (hends _ List.mem_cons_self)
  unfold Panel.Shortened at hshortened
  revert hshortened
  decide +kernel

end GrowthCurve.Plot
