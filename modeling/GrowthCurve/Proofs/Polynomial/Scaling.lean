import Mathlib
import GrowthCurve.Proofs.Polynomial.LeastSquares

/-!
# The scaled abscissae

Abscissae are measured from their mean, in units of the largest distance from
it. The scaled abscissae add up to zero and lie in `[-1, 1]`, and one of them is
at an end unless all abscissae are the same. The change of unit keeps distinct
abscissae apart.
-/

namespace GrowthCurve.Polynomial

open scoped Exact

variable {K : Type} [Field K] [LinearOrder K]

/-! ## The scale -/

section Scale

variable {shift x : K} {xs : List K}

/-- The largest distance from a point, or zero if there is none. -/
def reach (shift : K) (xs : List K) : K :=
  (xs.map fun x => |x - shift|).foldl max 0

theorem spread_eq (shift : K) (xs : List K) :
    spread shift xs = if 0 < reach shift xs then reach shift xs else 1 := by
  unfold spread reach
  simp only [Exact.less_eq, Exact.ofNat_eq, Exact.magnitude_eq, Exact.foldl_max_eq,
    decide_eq_true_eq, Nat.cast_zero, Nat.cast_one]

theorem isGreatest_reach (shift : K) (xs : List K) :
    IsGreatest {r | r ∈ 0 :: xs.map fun x => |x - shift|} (reach shift xs) :=
  Exact.isGreatest_foldl_max 0 _

theorem abs_sub_le_reach (hx : x ∈ xs) : |x - shift| ≤ reach shift xs :=
  (isGreatest_reach shift xs).2 (List.mem_cons_of_mem _ (List.mem_map.mpr ⟨x, hx, rfl⟩))

variable [IsStrictOrderedRing K]

theorem abs_sub_le_spread (hx : x ∈ xs) : |x - shift| ≤ spread shift xs := by
  rw [spread_eq]
  split_ifs with hreach
  · exact abs_sub_le_reach hx
  · exact (abs_sub_le_reach hx).trans ((not_lt.mp hreach).trans zero_le_one)

/-- Unless all abscissae are at the point, one of them is as far away as the scale. -/
theorem exists_abs_sub_eq_spread (hx : x ∈ xs) (hne : x ≠ shift) :
    ∃ y ∈ xs, |y - shift| = spread shift xs := by
  have hpos : 0 < reach shift xs :=
    (abs_pos.mpr (sub_ne_zero.mpr hne)).trans_le (abs_sub_le_reach hx)
  rw [spread_eq, if_pos hpos]
  obtain hzero | hmem := List.mem_cons.mp (isGreatest_reach shift xs).1
  · exact absurd hzero hpos.ne'
  · exact List.mem_map.mp hmem

end Scale

/-! ## The scaled abscissae -/

theorem length_parameters (xs : List K) : (parameters xs).length = xs.length :=
  List.length_map _

variable [IsStrictOrderedRing K] {xs : List K} {t : K}

omit [LinearOrder K] [IsStrictOrderedRing K] in
theorem length_mul_mean [CharZero K] (ys : List K) :
    (ys.length : K) * (ys.sum / ys.length) = ys.sum := by
  cases ys with
  | nil => simp
  | cons y ys => exact mul_div_cancel₀ _ (Nat.cast_ne_zero.mpr (Nat.succ_ne_zero ys.length))

theorem sum_parameters (xs : List K) : (parameters xs).sum = 0 := by
  have hsum : ∀ c s : K, (xs.map fun x => (x - c) / s).sum = (xs.sum - xs.length * c) / s := by
    intro c s
    induction xs with
    | nil => simp
    | cons x xs ih =>
        simp only [List.map_cons, List.sum_cons, ih, List.length_cons]
        push_cast
        ring
  have hcentre : centre xs = xs.sum / xs.length := by
    unfold centre
    rw [Exact.sum_eq, Exact.ofNat_eq]
  unfold parameters
  rw [hsum, hcentre, length_mul_mean, sub_self, zero_div]

theorem abs_scaled (xs : List K) (x : K) :
    |(x - centre xs) / spread (centre xs) xs| = |x - centre xs| / spread (centre xs) xs := by
  rw [abs_div, abs_of_pos (spread_pos (centre xs) xs)]

theorem abs_le_one_of_mem_parameters (ht : t ∈ parameters xs) : |t| ≤ 1 := by
  obtain ⟨x, hx, rfl⟩ := List.mem_map.mp ht
  rw [abs_scaled]
  exact div_le_one_of_le₀ (abs_sub_le_spread hx) (spread_pos (centre xs) xs).le

/-- Two abscissae that differ are not both at the centre. -/
theorem exists_parameter_at_end {x y : K} (hx : x ∈ xs) (hy : y ∈ xs) (hne : x ≠ y) :
    ∃ t ∈ parameters xs, |t| = 1 := by
  have hoff : ∃ z ∈ xs, z ≠ centre xs := by
    by_cases hcentre : x = centre xs
    · exact ⟨y, hy, hcentre ▸ hne.symm⟩
    · exact ⟨x, hx, hcentre⟩
  obtain ⟨z, hz, hzne⟩ := hoff
  obtain ⟨w, hw, hfar⟩ := exists_abs_sub_eq_spread hz hzne
  refine ⟨_, List.mem_map_of_mem hw, ?_⟩
  rw [abs_scaled, hfar, div_self (spread_pos (centre xs) xs).ne']

/-- If all abscissae are the same, so are the scaled ones, and they add up to zero. -/
theorem exists_ne_of_parameter_ne_zero (ht : t ∈ parameters xs) (hne : t ≠ 0) :
    ∃ x ∈ xs, ∃ y ∈ xs, x ≠ y := by
  by_contra! hsame
  obtain ⟨x, hx, rfl⟩ := List.mem_map.mp ht
  have hconstant : parameters xs =
      List.replicate xs.length ((x - centre xs) / spread (centre xs) xs) := by
    rw [← List.map_const']
    exact List.map_congr_left fun y hy => by rw [hsame y hy x hx]
  have hsum := sum_parameters xs
  rw [hconstant, List.sum_replicate, smul_eq_zero] at hsum
  exact hsum.elim (List.length_pos_of_mem hx).ne' hne

theorem exists_parameter_at_end_iff :
    (∃ t ∈ parameters xs, |t| = 1) ↔ ∃ x ∈ xs, ∃ y ∈ xs, x ≠ y := by
  constructor
  · rintro ⟨t, ht, hone⟩
    exact exists_ne_of_parameter_ne_zero ht (abs_pos.mp (hone ▸ one_pos))
  · rintro ⟨x, hx, y, hy, hne⟩
    exact exists_parameter_at_end hx hy hne

theorem card_parameters (xs : List K) : (parameters xs).toFinset.card = xs.toFinset.card := by
  have hscale := (spread_pos (centre xs) xs).ne'
  have hinjective : Function.Injective fun x : K => (x - centre xs) / spread (centre xs) xs := by
    intro x y hxy
    exact sub_left_injective ((div_left_inj' hscale).mp hxy)
  rw [parameters, List.card_toFinset, List.card_toFinset, List.dedup_map_of_injective hinjective,
    List.length_map]

end GrowthCurve.Polynomial
