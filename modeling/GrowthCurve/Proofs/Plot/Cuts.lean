import Mathlib
import GrowthCurve.Plot.Sketch
import GrowthCurve.Proofs.Binary.Length

/-!
# Cuts in doubles

Every second cut shortens a segment by a whole dash. Up to `2 ^ 48` that is more
than half a unit in the last place, so that the cuts come to an end. A longer
segment stays as long as it is, however often it is cut. Once a length is NaN
there are no cuts any more.
-/

namespace GrowthCurve.Plot

open GrowthCurve.Binary Float.Model UnpackedFloat

/-- The dashes of figures, for any spans. -/
def figureDashes (spans : Float × Float) : DashPattern Float :=
  ⟨0.02, 0.012, spans⟩

/-- What is left of a part of the pattern. -/
structure Short (r : Float) : Prop where
  finite : r.isFinite = true
  nonneg : 0 ≤ value r
  small : value r < 1 / 32

variable {r l : Float} {n : ℕ}

theorem value_dash : value 0.02 = 5764607523034235 / 2 ^ 58 := by
  have hdash : ofFloat? 0.02 = some ⟨false, 5764607523034235, -58⟩ := by decide
  rw [value_of_ofFloat? hdash]
  norm_num

theorem value_gap : value 0.012 = 6917529027641082 / 2 ^ 59 := by
  have hgap : ofFloat? 0.012 = some ⟨false, 6917529027641082, -59⟩ := by decide
  rw [value_of_ofFloat? hgap]
  norm_num

theorem short_dash : Short 0.02 := by
  refine ⟨by decide, ?_, ?_⟩
  · rw [value_dash]
    norm_num
  · rw [value_dash]
    norm_num

theorem short_gap : Short 0.012 := by
  refine ⟨by decide, ?_, ?_⟩
  · rw [value_gap]
    norm_num
  · rw [value_gap]
    norm_num

theorem short_part (spans : Float × Float) (drawing : Bool) :
    Short ((figureDashes spans).part drawing) := by
  cases drawing with
  | true => exact short_dash
  | false => exact short_gap

/-! ## What a cut leaves of a segment -/

/-- A length of at most `n / 256`. -/
structure AtMost (n : ℕ) (l : Float) : Prop where
  finite : l.isFinite = true
  nonneg : 0 ≤ value l
  bound : value l ≤ n / 256

/-- Taking a number away from a greater one leaves something between nothing and
the greater one. -/
theorem sub_between {x y : Float} (hx : x.isFinite = true) (hy : y.isFinite = true)
    (hnonneg : 0 ≤ value y) (hle : value y ≤ value x) :
    (x - y).isFinite = true ∧ 0 ≤ value (x - y) ∧ value (x - y) ≤ value x := by
  have hself := rounded_value hx
  have hround := roundsTo_sub hx hy
  have hbound : |value x - value y| ≤ value x :=
    abs_le.mpr ⟨by linarith, sub_le_self _ hnonneg⟩
  obtain ⟨hfinite, -⟩ := hround.bounded hself hbound (lt_of_abs_lt (abs_value_lt hx))
  have hround := hround.rounded hfinite
  exact ⟨hfinite, rounded_zero.mono hround (sub_nonneg.mpr hle),
    hround.mono hself (sub_le_self _ hnonneg)⟩

/-- A cut never makes a segment longer. -/
theorem AtMost.sub (hl : AtMost n l) (hr : Short r) (h : r < l) : AtMost n (l - r) := by
  rw [lt_iff_value hr.finite hl.finite] at h
  obtain ⟨hfinite, hnonneg, hle⟩ := sub_between hl.finite hr.finite hr.nonneg h.le
  exact ⟨hfinite, hnonneg, hle.trans hl.bound⟩

theorem Short.sub (hr : Short r) (hl : AtMost n l) (h : ¬ r < l) : Short (r - l) := by
  rw [lt_iff_value hr.finite hl.finite, not_lt] at h
  obtain ⟨hfinite, hnonneg, hle⟩ := sub_between hr.finite hl.finite hl.nonneg h
  exact ⟨hfinite, hnonneg, hle.trans_lt hr.small⟩

/-- A whole dash makes it shorter, by more than the result is rounded. -/
theorem AtMost.sub_dash (hl : AtMost (n + 1) l) (hn : n < 2 ^ 56) (h : 0.02 < l) :
    AtMost n (l - 0.02) := by
  obtain ⟨hfinite, hnonneg, -⟩ := hl.sub short_dash h
  refine ⟨hfinite, hnonneg, ?_⟩
  have hlt := (lt_iff_value short_dash.finite hl.finite).mp h
  have hbound := hl.bound
  have hcount : (n + 1 : ℚ) ≤ 2 ^ 56 := by exact_mod_cast hn
  rw [value_dash] at hlt
  have hround := (roundsTo_sub hl.finite short_dash.finite).rounded hfinite
  have herror := hround.error_le (f := -5) (by decide) (by
    rw [value_dash, abs_lt]
    push_cast at hbound
    constructor <;> norm_num <;> linarith)
  rw [value_dash] at herror
  have hupper := (abs_le.mp herror).2
  push_cast at hbound
  norm_num at hupper
  linarith

/-- After `2 ^ 48` the doubles lie at least a sixteenth apart. -/
theorem step_after_longest {v : ℚ} (hv : Rounded v v) (hlarge : 2 ^ 48 < v) :
    2 ^ 48 + 1 / 16 ≤ v := by
  obtain ⟨e, k, hunit, -, hk⟩ := hv
  have hle : (2 : ℚ) ^ (48 : ℤ) ≤ |v| := by
    norm_num
    exact hlarge.le.trans (le_abs_self v)
  have he := hunit.lt_of_le hle
  obtain ⟨i, hi⟩ := exists_eq_mul_zpow k (show -4 ≤ e by omega)
  rw [← hk] at hi
  norm_num at hi
  have hlt : (2 ^ 52 : ℤ) < i := by
    have hcast : (2 ^ 52 : ℚ) < i := by
      rw [hi] at hlarge
      linarith
    exact_mod_cast hcast
  have hnext : (2 ^ 52 + 1 : ℚ) ≤ i := by exact_mod_cast hlt
  rw [hi]
  linarith

/-- A small part of a large number is lost when it is taken away. -/
theorem rounded_sub_of_large {v w : ℚ} (hv : Rounded v v) (hlarge : 2 ^ 48 < v) (hw : 0 ≤ w)
    (hsmall : w < 1 / 32) : Rounded (v - w) v := by
  have hstep := step_after_longest hv hlarge
  obtain ⟨e, k, hunit, -, hk⟩ := hv
  obtain ⟨f, hunit'⟩ := exists_hasUnit (v - w)
  have habs : |v - w| = v - w := abs_of_pos (by linarith)
  have hle : (2 : ℚ) ^ (48 : ℤ) ≤ |v - w| := by
    rw [habs]
    norm_num
    linarith
  have hf := hunit'.lt_of_le hle
  have hfe : f ≤ e := by
    refine hunit'.le_of_bound hunit.low (lt_of_le_of_lt ?_ hunit.bound)
    rw [habs]
    exact (sub_le_self v hw).trans (le_abs_self v)
  obtain ⟨i, hi⟩ := exists_eq_mul_zpow k hfe
  rw [← hk] at hi
  have hpower : (0 : ℚ) < 2 ^ f := by positivity
  have hunits : (2 : ℚ) ^ (-4 : ℤ) ≤ 2 ^ f := zpow_le_zpow_right₀ one_le_two (by omega)
  have hlost : w / 2 ^ f < 1 / 2 := by
    rw [div_lt_iff₀ hpower]
    norm_num at hunits
    linarith
  have hdistance : i - (v - w) / 2 ^ f = w / 2 ^ f := by
    rw [sub_div, hi, mul_div_cancel_right₀ _ hpower.ne']
    ring
  refine ⟨f, i, hunit', nearest_of_close ?_, hi⟩
  rwa [hdistance, abs_of_nonneg (div_nonneg hw hpower.le)]

/-- The greatest length that whole dashes still shorten, `2 ^ 48`. -/
def longest : Float :=
  281474976710656

theorem isFinite_longest : longest.isFinite = true := by
  decide

theorem value_longest : value longest = 2 ^ 48 := by
  have hlongest : longest = Float.ofNat 281474976710656 := rfl
  rw [hlongest, value_ofNat (by decide)]
  norm_num

theorem Short.lt_of_large (hr : Short r) (hl : longest < l) : r < l := by
  have hlt : r < longest := by
    rw [lt_iff_value hr.finite isFinite_longest, value_longest]
    linarith [hr.small]
  exact Binary.lt_of_lt_of_le hlt (Binary.le_of_lt hl)

/-- A long segment stays as it is. -/
theorem sub_short_of_large (hl : longest < l) (hr : Short r) : l - r = l := by
  rcases isFinite_of_not_isNaN (lt_iff.mp hl).2.1 with hfinite | ⟨s, hinfinite⟩
  · have hlarge := (lt_iff_value isFinite_longest hfinite).mp hl
    rw [value_longest] at hlarge
    obtain ⟨u, hu, hvalue, hunpack⟩ := roundsTo_sub hfinite hr.finite
    have hsame := hvalue.unique
      (rounded_sub_of_large (rounded_value hfinite) hlarge hr.nonneg hr.small)
    apply eq_of_roundsTo hfinite (by linarith)
    refine ⟨u, hu, ?_, hunpack⟩
    rw [hsame]
    exact rounded_value hfinite
  · exact infinite_sub_of_isFinite hinfinite hr.finite

/-! ## One segment -/

namespace Pen

variable {d : DashPattern Float} {spans a b : Float × Float} {pen : Pen Float} {fuel k : ℕ}

theorem along_of_not_lt (h : ¬ pen.remaining < l) :
    along d fuel a b l pen = some (fuel, pen.arrive l b) := by
  have hless : Scalar.less pen.remaining l = false := Bool.eq_false_iff.mpr h
  cases fuel with
  | zero => simp [along, hless]
  | succ fuel => simp [along, hless]

theorem along_of_lt (h : pen.remaining < l) :
    along d (fuel + 1) a b l pen =
      along d fuel (between a b (pen.remaining / l)) b (l - pen.remaining)
        (pen.cutAt d (between a b (pen.remaining / l))) := by
  have hless : Scalar.less pen.remaining l = true := h
  simp only [along, hless, if_true]

theorem along_zero_of_lt (h : pen.remaining < l) : along d 0 a b l pen = none := by
  have hless : Scalar.less pen.remaining l = true := h
  simp only [along, hless, if_true]

/-- With this pen `k` cuts suffice for every segment of length at most `n / 256`. -/
def Suffices (d : DashPattern Float) (k n : ℕ) (pen : Pen Float) : Prop :=
  ∀ fuel a b l, AtMost n l → k ≤ fuel →
    ∃ left pen', along d fuel a b l pen = some (left, pen') ∧ fuel ≤ left + k

theorem Suffices.mono {k' : ℕ} (h : Suffices d k n pen) (hk : k ≤ k') : Suffices d k' n pen := by
  intro fuel a b l hl hfuel
  obtain ⟨left, pen', halong, hleft⟩ := h fuel a b l hl (hk.trans hfuel)
  exact ⟨left, pen', halong, by omega⟩

theorem Suffices.of_cut {n' : ℕ}
    (hrest : ∀ l, AtMost n' l → pen.remaining < l → AtMost n (l - pen.remaining))
    (h : ∀ cut, Suffices d k n (pen.cutAt d cut)) : Suffices d (k + 1) n' pen := by
  intro fuel a b l hl hfuel
  by_cases hcut : pen.remaining < l
  · obtain ⟨fuel, rfl⟩ : ∃ f, fuel = f + 1 := ⟨fuel - 1, by omega⟩
    rw [along_of_lt hcut]
    obtain ⟨left, pen', halong, hleft⟩ :=
      h _ fuel (between a b (pen.remaining / l)) b _ (hrest l hl hcut) (by omega)
    exact ⟨left, pen', halong, by omega⟩
  · exact ⟨fuel, _, along_of_not_lt hcut, by omega⟩

theorem Suffices.of_short (hpen : Short pen.remaining)
    (h : ∀ cut, Suffices d k n (pen.cutAt d cut)) : Suffices d (k + 1) n pen :=
  .of_cut (fun _ hl hcut => hl.sub hpen hcut) h

/-- After a whole dash less is left of the segment. -/
theorem Suffices.of_whole_dash (hpen : pen.remaining = 0.02) (hn : n < 2 ^ 56)
    (h : ∀ cut, Suffices d k n (pen.cutAt d cut)) : Suffices d (k + 1) (n + 1) pen := by
  refine .of_cut (fun l hl hcut => ?_) h
  rw [hpen] at hcut ⊢
  exact hl.sub_dash hn hcut

theorem short_cutAt (pen : Pen Float) (cut : Float × Float) :
    Short (pen.cutAt (figureDashes spans) cut).remaining :=
  short_part spans _

/-- A pen that pauses comes to the start of a dash. -/
theorem suffices_of_pausing
    (hdash : ∀ pen : Pen Float, pen.drawing = true → pen.remaining = 0.02 →
      Suffices (figureDashes spans) k n pen)
    (hpen : Short pen.remaining) (hpausing : pen.drawing = false) :
    Suffices (figureDashes spans) (k + 1) n pen := by
  refine .of_short hpen fun cut => hdash _ ?_ ?_
  · simp [cutAt, hpausing]
  · simp [cutAt, hpausing, DashPattern.part, figureDashes]

/-- A pen at the start of a dash cuts twice for every `1 / 256`. -/
theorem suffices_of_dash (hn : n ≤ 2 ^ 56) (hdrawing : pen.drawing = true)
    (hpen : pen.remaining = 0.02) : Suffices (figureDashes spans) (2 * n) n pen := by
  induction n generalizing pen with
  | zero =>
      intro fuel a b l hl _
      have hcut : ¬ pen.remaining < l := by
        rw [hpen, lt_iff_value short_dash.finite hl.finite, value_dash]
        have hbound := hl.bound
        norm_num at hbound ⊢
        linarith
      exact ⟨fuel, _, along_of_not_lt hcut, le_rfl⟩
  | succ n ih =>
      refine .of_whole_dash hpen hn fun cut => ?_
      apply suffices_of_pausing (fun pen => ih (by omega)) (short_cutAt pen cut)
      simp [cutAt, hdrawing]

theorem suffices_of_short (hn : n ≤ 2 ^ 56) (hpen : Short pen.remaining) :
    Suffices (figureDashes spans) (2 * n + 2) n pen := by
  have hpausing : ∀ pen : Pen Float, Short pen.remaining → pen.drawing = false →
      Suffices (figureDashes spans) (2 * n + 1) n pen := fun pen =>
    suffices_of_pausing fun pen => suffices_of_dash hn
  cases hdrawing : pen.drawing with
  | false => exact (hpausing pen hpen hdrawing).mono (by omega)
  | true =>
      refine .of_short hpen fun cut => hpausing _ (short_cutAt pen cut) ?_
      simp [cutAt, hdrawing]

/-- No number of cuts takes the pen to the end of a long segment. -/
theorem along_of_large (hl : longest < l) (hpen : Short pen.remaining) :
    along (figureDashes spans) fuel a b l pen = none := by
  induction fuel generalizing a pen with
  | zero => exact along_zero_of_lt (hpen.lt_of_large hl)
  | succ fuel ih =>
      rw [along_of_lt (hpen.lt_of_large hl), sub_short_of_large hl hpen]
      exact ih (short_cutAt pen _)

/-- What is left of the pattern stays short from one vertex to the next. -/
theorem short_of_along {left : ℕ} {pen' : Pen Float} (hl : AtMost n l)
    (hpen : Short pen.remaining)
    (h : along (figureDashes spans) fuel a b l pen = some (left, pen')) :
    Short pen'.remaining := by
  induction fuel generalizing a l pen with
  | zero =>
      by_cases hcut : pen.remaining < l
      · rw [along_zero_of_lt hcut] at h
        cases h
      · rw [along_of_not_lt hcut] at h
        obtain ⟨-, rfl⟩ := Prod.mk.inj (Option.some.inj h)
        exact hpen.sub hl hcut
  | succ fuel ih =>
      by_cases hcut : pen.remaining < l
      · rw [along_of_lt hcut] at h
        exact ih (hl.sub hpen hcut) (short_cutAt pen _) h
      · rw [along_of_not_lt hcut] at h
        obtain ⟨-, rfl⟩ := Prod.mk.inj (Option.some.inj h)
        exact hpen.sub hl hcut

end Pen

/-! ## The whole curve -/

/-- The lengths of the segments between consecutive points. -/
def DashPattern.lengths {α : Type} [Scalar α] (d : DashPattern α) : List (α × α) → List α
  | a :: b :: rest => d.distance a b :: d.lengths (b :: rest)
  | _ => []

/-- The lengths before the first one that is NaN. -/
def DashPattern.measured (d : DashPattern Float) (points : List (Float × Float)) : List Float :=
  (d.lengths points).takeWhile fun l => !l.isNaN

section Curve

variable {d : DashPattern Float} {spans a b : Float × Float} {rest points : List (Float × Float)}
  {pen : Pen Float} {fuel : ℕ}

theorem measured_of_isNaN (h : (d.distance a b).isNaN = true) :
    d.measured (a :: b :: rest) = [] := by
  unfold DashPattern.measured DashPattern.lengths
  rw [List.takeWhile_cons_of_neg (by simpa using h)]

theorem measured_of_number (h : (d.distance a b).isNaN = false) :
    d.measured (a :: b :: rest) = d.distance a b :: d.measured (b :: rest) := by
  unfold DashPattern.measured
  rw [show d.lengths (a :: b :: rest) = d.distance a b :: d.lengths (b :: rest) from rfl,
    List.takeWhile_cons_of_pos (by simpa using h)]

theorem nonneg_distance_of_number (h : (d.distance a b).isNaN = false) : 0 ≤ d.distance a b := by
  have hlength : (d.distance a b).isNaN = true ∨ 0 ≤ d.distance a b :=
    isNaN_or_nonneg_euclideanLength _ _
  apply hlength.resolve_left
  rw [h]
  exact Bool.false_ne_true

theorem atMost_of_le (hl : l ≤ longest) (hnonneg : 0 ≤ l) : AtMost (2 ^ 56) l := by
  rcases nonneg_cases hnonneg with hinfinite | ⟨hfinite, hvalue⟩
  · exact absurd (lt_infinite isFinite_longest hinfinite) (not_lt_of_le hl)
  · refine ⟨hfinite, hvalue, ?_⟩
    rw [le_iff_value hfinite isFinite_longest, value_longest] at hl
    norm_num
    linarith

namespace Pen

theorem not_lt_of_isNaN_left {x y : Float} (h : x.isNaN = true) : ¬ x < y := by
  intro hlt
  rw [(lt_iff.mp hlt).1] at h
  cases h

theorem not_lt_of_isNaN_right {x y : Float} (h : y.isNaN = true) : ¬ x < y := by
  intro hlt
  rw [(lt_iff.mp hlt).2.1] at h
  cases h

theorem follow_of_along {left : ℕ} {pen' : Pen Float}
    (h : along d fuel a b (d.distance a b) pen = some (left, pen')) :
    follow d fuel (a :: b :: rest) pen = follow d left (b :: rest) pen' := by
  rw [follow, h]

theorem follow_of_along_none (h : along d fuel a b (d.distance a b) pen = none) :
    follow d fuel (a :: b :: rest) pen = none := by
  rw [follow, h]

/-- A pen that does not know what is left of the pattern never cuts again. -/
theorem follow_of_isNaN (h : pen.remaining.isNaN = true) :
    ∃ pen', follow d fuel points pen = some pen' := by
  induction points generalizing pen with
  | nil => exact ⟨pen, by simp [follow]⟩
  | cons a points ih =>
      cases points with
      | nil => exact ⟨pen, by simp [follow]⟩
      | cons b rest =>
          rw [follow_of_along (along_of_not_lt (not_lt_of_isNaN_left h))]
          exact ih (isNaN_sub_left h _)

/-- The cuts of a curve whose segments are at most `n / 256` long. -/
theorem exists_follow_of_short {n : ℕ} (hn : n ≤ 2 ^ 56) (hpen : Short pen.remaining)
    (hlengths : ∀ l ∈ (figureDashes spans).measured points, AtMost n l)
    (hfuel : (2 * n + 2) * points.length ≤ fuel) :
    ∃ pen', follow (figureDashes spans) fuel points pen = some pen' := by
  induction points generalizing pen fuel with
  | nil => exact ⟨pen, by simp [follow]⟩
  | cons a points ih =>
      cases points with
      | nil => exact ⟨pen, by simp [follow]⟩
      | cons b rest =>
          rw [List.length_cons, mul_add_one] at hfuel
          cases hnan : ((figureDashes spans).distance a b).isNaN with
          | true =>
              rw [follow_of_along (along_of_not_lt (not_lt_of_isNaN_right hnan))]
              exact follow_of_isNaN (isNaN_sub_right _ hnan)
          | false =>
              rw [measured_of_number hnan, List.forall_mem_cons] at hlengths
              obtain ⟨left, pen', halong, hleft⟩ :=
                suffices_of_short hn hpen fuel a b _ hlengths.1 (by omega)
              have hfuel' : (2 * n + 2) * (b :: rest).length ≤ left := by omega
              rw [follow_of_along halong]
              exact ih (short_of_along hlengths.1 hpen halong) hlengths.2 hfuel'

/-- The pen never gets past a long segment. -/
theorem follow_of_large (hpen : Short pen.remaining)
    (hlarge : ∃ l ∈ (figureDashes spans).measured points, ¬ l ≤ longest) :
    follow (figureDashes spans) fuel points pen = none := by
  induction points generalizing pen fuel with
  | nil =>
      obtain ⟨l, hl, -⟩ := hlarge
      cases hl
  | cons a points ih =>
      cases points with
      | nil =>
          obtain ⟨l, hl, -⟩ := hlarge
          cases hl
      | cons b rest =>
          cases hnan : ((figureDashes spans).distance a b).isNaN with
          | true =>
              rw [measured_of_isNaN hnan] at hlarge
              obtain ⟨l, hl, -⟩ := hlarge
              cases hl
          | false =>
              rw [measured_of_number hnan, List.exists_mem_cons_iff] at hlarge
              have hnonneg := nonneg_distance_of_number hnan
              by_cases hle : (figureDashes spans).distance a b ≤ longest
              · have hrest := hlarge.resolve_left (not_not.mpr hle)
                cases halong : along (figureDashes spans) fuel a b
                    ((figureDashes spans).distance a b) pen with
                | none => exact follow_of_along_none halong
                | some state =>
                    obtain ⟨left, pen'⟩ := state
                    rw [follow_of_along halong]
                    exact ih (short_of_along (atMost_of_le hle hnonneg) hpen halong) hrest
              · have hlt : longest < (figureDashes spans).distance a b := by
                  by_contra hnot
                  exact hle (le_of_not_lt (isNaN_of_finite isFinite_longest) hnan hnot)
                exact follow_of_along_none (along_of_large hlt hpen)

end Pen

theorem exists_of_mem_measured (h : l ∈ d.measured points) :
    l.isNaN = false ∧ ∃ a ∈ points, ∃ b ∈ points, l = d.distance a b := by
  induction points with
  | nil => cases h
  | cons a points ih =>
      cases points with
      | nil => cases h
      | cons b rest =>
          cases hnan : (d.distance a b).isNaN with
          | true =>
              rw [measured_of_isNaN hnan] at h
              cases h
          | false =>
              rw [measured_of_number hnan] at h
              rcases List.mem_cons.mp h with rfl | h
              · exact ⟨hnan, a, List.mem_cons_self, b,
                  List.mem_cons_of_mem a List.mem_cons_self, rfl⟩
              · obtain ⟨hnan', a', ha', b', hb', hl⟩ := ih h
                exact ⟨hnan', a', List.mem_cons_of_mem a ha', b', List.mem_cons_of_mem a hb', hl⟩

theorem nonneg_of_mem_measured (h : l ∈ d.measured points) : 0 ≤ l := by
  obtain ⟨hnan, a, -, b, -, rfl⟩ := exists_of_mem_measured h
  exact nonneg_distance_of_number hnan

theorem dashPieces_isSome {n : ℕ} (hn : n ≤ 2 ^ 56)
    (hlengths : ∀ l ∈ (figureDashes spans).measured points, AtMost n l)
    (hfuel : (2 * n + 2) * points.length ≤ fuel) :
    (dashPieces (figureDashes spans) fuel points).isSome := by
  unfold dashPieces
  rw [Option.isSome_map]
  exact Option.isSome_iff_exists.mpr (Pen.exists_follow_of_short hn short_dash hlengths hfuel)

/-- So many cuts for each point are enough, or no number of cuts is. -/
def cutsEnough : ℕ :=
  2 * 2 ^ 56 + 2

theorem dashPieces_cutsEnough
    (h : ∀ l ∈ (figureDashes spans).measured points, l ≤ longest) :
    (dashPieces (figureDashes spans) (cutsEnough * points.length) points).isSome :=
  dashPieces_isSome le_rfl (fun l hl => atMost_of_le (h l hl) (nonneg_of_mem_measured hl)) le_rfl

theorem dashPieces_eq_none
    (h : ¬ ∀ l ∈ (figureDashes spans).measured points, l ≤ longest) :
    dashPieces (figureDashes spans) fuel points = none := by
  push Not at h
  unfold dashPieces
  rw [Pen.follow_of_large short_dash h]
  rfl

end Curve

end GrowthCurve.Plot
