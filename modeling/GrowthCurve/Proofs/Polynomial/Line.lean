import Mathlib
import GrowthCurve.Proofs.Polynomial.Scaling

/-!
# Constants and straight lines

One or two columns need no decomposition of the matrix. The scaled abscissae sum
to zero, so that the mean of the target and its slope can be found one without
the other.
-/

namespace GrowthCurve.Polynomial.Line

open scoped Exact

variable {K : Type} [Field K]

/-- Least squares for a column of ones and, if there is another one, a column
that sums to zero. -/
def solve : Solver K := fun rows columns ys =>
  let ts := rows.map fun row => row.getD 1 0
  .ok ([ys.sum / ys.length, (List.zipWith (· * ·) ts ys).sum / (ts.map (· ^ 2)).sum].take columns)

theorem squaredError_line {ts ys : List K} (hlength : ts.length = ys.length) (a b : K) :
    squaredError ys (ts.map fun t => a + b * t) =
      (ys.map (· ^ 2)).sum - 2 * a * ys.sum - 2 * b * (List.zipWith (· * ·) ts ys).sum +
        ys.length * a ^ 2 + 2 * a * b * ts.sum + b ^ 2 * (ts.map (· ^ 2)).sum := by
  induction ts generalizing ys with
  | nil =>
      rw [List.length_eq_zero_iff.mp hlength.symm]
      simp [squaredError]
  | cons t ts ih =>
      cases ys with
      | nil => simp at hlength
      | cons y ys =>
          simp only [List.map_cons, squaredError_cons, List.sum_cons, List.zipWith_cons_cons,
            List.length_cons]
          rw [ih (by simpa using hlength)]
          push_cast
          ring

variable [LinearOrder K]

theorem map_rowValue_constant (ts : List K) (a : K) :
    (design ts 1).map (fun row => rowValue row [a]) = ts.map fun t => a + 0 * t := by
  have hone : [a].length = 1 := rfl
  rw [map_rowValue_design hone]
  exact List.map_congr_left fun t _ => by simp [evaluate]

theorem map_rowValue_line (ts : List K) (a b : K) :
    (design ts 2).map (fun row => rowValue row [a, b]) = ts.map fun t => a + b * t := by
  have htwo : [a, b].length = 2 := rfl
  rw [map_rowValue_design htwo]
  exact List.map_congr_left fun t _ => by simp [evaluate, add_comm]

theorem map_getD_design (ts : List K) : ((design ts 2).map fun row => row.getD 1 0) = ts := by
  unfold design
  rw [List.map_map]
  exact (List.map_congr_left fun t _ => by simp [List.range_succ]).trans (List.map_id ts)

variable [IsStrictOrderedRing K]

/-- With centred abscissae the mean and the slope give the least error. A slope
that is not free to choose need not be the best one. -/
theorem squaredError_line_le {ts ys : List K} (hlength : ts.length = ys.length)
    (hcentred : ts.sum = 0) {mean slope : K} (hmean : ys.length * mean = ys.sum) (a : K) {b : K}
    (hslope : b = slope ∨ slope * (ts.map (· ^ 2)).sum = (List.zipWith (· * ·) ts ys).sum) :
    squaredError ys (ts.map fun t => mean + slope * t) ≤
      squaredError ys (ts.map fun t => a + b * t) := by
  have hmixed : (b - slope) *
      (slope * (ts.map (· ^ 2)).sum - (List.zipWith (· * ·) ts ys).sum) = 0 := by
    rcases hslope with hslope | hslope
    · rw [hslope, sub_self, zero_mul]
    · rw [hslope, sub_self, mul_zero]
  have hsquares : 0 ≤ (ts.map (· ^ 2)).sum := by
    apply List.sum_nonneg
    intro s hs
    obtain ⟨t, -, rfl⟩ := List.mem_map.mp hs
    exact sq_nonneg t
  have hexcess : 0 ≤ ys.length * (a - mean) ^ 2 + (ts.map (· ^ 2)).sum * (b - slope) ^ 2 :=
    add_nonneg (mul_nonneg (Nat.cast_nonneg _) (sq_nonneg _)) (mul_nonneg hsquares (sq_nonneg _))
  rw [squaredError_line hlength, squaredError_line hlength, hcentred, ← hmean]
  linarith [hexcess, hmixed]

/-! ## The scaled abscissae -/

/-- Scaled abscissae that are all zero come from one abscissa. -/
theorem sum_squares_parameters_ne_zero {xs : List K} (hdistinct : 2 ≤ xs.toFinset.card) :
    ((parameters xs).map (· ^ 2)).sum ≠ 0 := by
  intro hzero
  obtain ⟨x, hx, y, hy, hne⟩ := Finset.one_lt_card.mp hdistinct
  obtain ⟨t, ht, hend⟩ :=
    exists_parameter_at_end (List.mem_toFinset.mp hx) (List.mem_toFinset.mp hy) hne
  have herror : squaredError (parameters xs) ((parameters xs).map fun _ => 0) = 0 := by
    unfold squaredError
    rw [List.zipWith_map_right, List.zipWith_self]
    simpa using hzero
  have hzeros := eq_of_squaredError_le_zero (by rw [List.length_map]) herror.le
  rw [← hzeros, List.map_const'] at ht
  rw [List.eq_of_mem_replicate ht, abs_zero] at hend
  exact zero_ne_one hend

/-! ## The solver -/

theorem findsMinimiser_constant {xs ys : List K} (hlength : xs.length = ys.length) :
    FindsMinimiser solve (design (parameters xs) 1) 1 ys := by
  refine ⟨[ys.sum / ys.length], rfl, rfl, fun c' hc' => ?_⟩
  obtain ⟨a, rfl⟩ := List.length_eq_one_iff.mp hc'
  rw [map_rowValue_constant, map_rowValue_constant]
  exact squaredError_line_le ((length_parameters xs).trans hlength) (sum_parameters xs)
    (length_mul_mean ys) a (.inl rfl)

theorem findsMinimiser_line {xs ys : List K} (hlength : xs.length = ys.length)
    (hdistinct : 2 ≤ xs.toFinset.card) :
    FindsMinimiser solve (design (parameters xs) 2) 2 ys := by
  let slope := (List.zipWith (· * ·) (parameters xs) ys).sum / ((parameters xs).map (· ^ 2)).sum
  have hanswer : solve (design (parameters xs) 2) 2 ys = .ok [ys.sum / ys.length, slope] := by
    unfold solve
    simp only [map_getD_design]
    rfl
  refine ⟨_, hanswer, rfl, fun c' hc' => ?_⟩
  obtain ⟨a, b, rfl⟩ := List.length_eq_two.mp hc'
  rw [map_rowValue_line, map_rowValue_line]
  exact squaredError_line_le ((length_parameters xs).trans hlength) (sum_parameters xs)
    (length_mul_mean ys) a (.inr (div_mul_cancel₀ _ (sum_squares_parameters_ne_zero hdistinct)))

end GrowthCurve.Polynomial.Line
