import Mathlib
import GrowthCurve.Proofs.Polynomial.Distinct
import GrowthCurve.Proofs.Polynomial.Expansion

/-!
# Least squares over exact scalars

The solver minimises over the powers of the scaled variable. The change of
variable is undone by the same expansion with the inverse shift and scale, so
that the polynomial found is a minimiser among all polynomials in `x`.
-/

namespace GrowthCurve.Polynomial

/-! ## The guards -/

section Guards

variable {α : Type} [Scalar α] {decompose : List (List α) → ℕ → Decomposition α} {xs ys : List α}
  {n : ℕ}

theorem leastSquares_of_few (solve : Solver α) (h : distinctCount xs < n + 1) :
    leastSquares solve xs ys n = .error (.insufficientData (n + 1) (distinctCount xs)) := by
  unfold leastSquares
  exact if_pos h

/-- With enough distinct abscissae it is the rank of the matrix that decides. -/
theorem leastSquares_of_enough {d : Decomposition α} (h : n + 1 ≤ distinctCount xs)
    (hd : decompose (design (xs.map fun x => (x - centre xs) / spread (centre xs) xs) (n + 1))
      (n + 1) = d) :
    leastSquares (.ofDecomposition decompose) xs ys n =
      if d.rank < n + 1 then .error (.insufficientData (n + 1) d.rank)
      else .ok ⟨d.coefficients ys, centre xs, spread (centre xs) xs⟩ := by
  unfold leastSquares Solver.ofDecomposition
  dsimp only
  rw [if_neg (not_lt.mpr h), hd]
  split_ifs <;> rfl

end Guards

/-! ## Errors over exact scalars -/

open scoped Exact

variable {K : Type} [Field K]

/-- The sum of the squared differences of two lists. -/
def squaredError (actual predicted : List K) : K :=
  (List.zipWith (fun y p => (y - p) ^ 2) actual predicted).sum

/-- The product of a row of a matrix and a vector. -/
def rowValue (row c : List K) : K :=
  (List.zipWith (· * ·) row c).sum

theorem squaredError_cons (y p : K) (ys ps : List K) :
    squaredError (y :: ys) (p :: ps) = (y - p) ^ 2 + squaredError ys ps := by
  simp [squaredError]

theorem squaredError_self (ys : List K) : squaredError ys ys = 0 := by
  induction ys with
  | nil => rfl
  | cons y ys ih => rw [squaredError_cons, ih, sub_self, zero_pow two_ne_zero, add_zero]

theorem rowValue_cons (a c : K) (row cs : List K) :
    rowValue (a :: row) (c :: cs) = a * c + rowValue row cs := by
  simp [rowValue]

theorem rowValue_map_mul (t : K) (row c : List K) :
    rowValue (row.map (t * ·)) c = t * rowValue row c := by
  induction row generalizing c with
  | nil => simp [rowValue]
  | cons a row ih =>
      cases c with
      | nil => simp [rowValue]
      | cons b c =>
          rw [List.map_cons, rowValue_cons, rowValue_cons, ih]
          ring

variable [LinearOrder K]

theorem squaredError_nonneg [IsStrictOrderedRing K] (ys ps : List K) :
    0 ≤ squaredError ys ps := by
  induction ys generalizing ps with
  | nil => simp [squaredError]
  | cons y ys ih =>
      cases ps with
      | nil => simp [squaredError]
      | cons p ps =>
          rw [squaredError_cons]
          exact add_nonneg (sq_nonneg _) (ih ps)

/-- Only the target itself has no error. -/
theorem eq_of_squaredError_le_zero [IsStrictOrderedRing K] {ys ps : List K}
    (hlength : ys.length = ps.length) (h : squaredError ys ps ≤ 0) : ps = ys := by
  induction ys generalizing ps with
  | nil => exact List.length_eq_zero_iff.mp hlength.symm
  | cons y ys ih =>
      cases ps with
      | nil => simp at hlength
      | cons p ps =>
          rw [squaredError_cons] at h
          have hrest := squaredError_nonneg ys ps
          have hfirst := sq_nonneg (y - p)
          have hzero : (y - p) ^ 2 = 0 := by linarith
          have hsame : y = p := sub_eq_zero.mp (pow_eq_zero_iff two_ne_zero |>.mp hzero)
          have htail : ps = ys := ih (by simpa using hlength) (by linarith)
          rw [hsame, htail]

/-- The solver answers one call with a minimiser: one coefficient per column,
and no other choice of coefficients comes closer to the target. -/
def FindsMinimiser (solve : Solver K) (rows : List (List K)) (columns : ℕ) (target : List K) :
    Prop :=
  ∃ c, solve rows columns target = .ok c ∧ c.length = columns ∧
    ∀ c' : List K, c'.length = columns →
      squaredError target (rows.map fun row => rowValue row c) ≤
        squaredError target (rows.map fun row => rowValue row c')

/-- The shifted and scaled abscissae. -/
noncomputable def parameters (xs : List K) : List K :=
  xs.map fun x => (x - centre xs) / spread (centre xs) xs

/-! ## The design matrix -/

theorem powers_succ (t : K) (n : ℕ) :
    (List.range (n + 1)).map (Scalar.power t) =
      1 :: ((List.range n).map (Scalar.power t)).map (t * ·) := by
  rw [List.range_succ_eq_map, List.map_cons, List.map_map, List.map_map]
  congr 1
  · simp
  · apply List.map_congr_left
    intro k _
    simp only [Function.comp_apply, Exact.power_eq, Nat.succ_eq_add_one, pow_succ']

/-- A row of the design matrix evaluates a polynomial at its abscissa. -/
theorem rowValue_powers (c : List K) (t : K) :
    rowValue ((List.range c.length).map (Scalar.power t)) c = evaluate c.reverse t := by
  rw [evaluate_reverse]
  induction c with
  | nil => simp [rowValue]
  | cons a c ih =>
      rw [List.length_cons, powers_succ, rowValue_cons, rowValue_map_mul, ih]
      simp

theorem map_rowValue_design {ts c : List K} {columns : ℕ} (h : c.length = columns) :
    (design ts columns).map (fun row => rowValue row c) = ts.map (evaluate c.reverse) := by
  subst h
  unfold design
  rw [List.map_map]
  apply List.map_congr_left
  intro t _
  exact rowValue_powers c t

theorem evaluate_constant (d : ℕ) (a x : K) :
    evaluate (List.replicate d 0 ++ [a]) x = a := by
  rw [evaluate_append, evaluate_eq_eval, List.reverse_replicate, toPoly_replicate_zero]
  simp

/-! ## The change of variable -/

theorem spread_pos [IsStrictOrderedRing K] (shift : K) (xs : List K) : 0 < spread shift xs := by
  unfold spread
  simp only [Exact.ofNat_eq, Exact.less_eq, decide_eq_true_eq, Nat.cast_zero, Nat.cast_one]
  split_ifs with hreach
  · exact hreach
  · exact one_pos

/-- Every polynomial in `x` is a polynomial in the scaled variable, with as
many coefficients. -/
theorem exists_scaled [IsStrictOrderedRing K] (shift : K) {scale : K} (hscale : scale ≠ 0)
    (q : List K) :
    ∃ c : List K, c.length = q.length ∧
      ∀ x, (Scaled.mk c shift scale).evaluate x = evaluate q x := by
  let back : Scaled K := ⟨q.reverse, -shift / scale, scale⁻¹⟩
  refine ⟨back.expansion, ?_, ?_⟩
  · rw [Scaled.length_expansion, List.length_reverse]
  · intro x
    have hback : back.parameter ((x - shift) / scale) = x := by
      show ((x - shift) / scale - -shift / scale) / scale⁻¹ = x
      field_simp
      ring
    have hexpand := back.evaluate_coefficientsHighestFirst ((x - shift) / scale)
    show evaluate back.expansion.reverse ((x - shift) / scale) = _
    rw [Scaled.coefficientsHighestFirst] at hexpand
    rw [hexpand, Scaled.evaluate, hback, List.reverse_reverse]

/-! ## The polynomial found -/

/-- With enough distinct abscissae the solver is asked, and its answer is a
minimiser among all polynomials in `x` with as many coefficients. -/
theorem leastSquares_minimises [IsStrictOrderedRing K] {solve : Solver K} {xs ys : List K}
    {d : ℕ} (hdistinct : d + 1 ≤ xs.toFinset.card)
    (hsolve : FindsMinimiser solve (design (parameters xs) (d + 1)) (d + 1) ys) :
    ∃ p, leastSquares solve xs ys d = .ok p ∧ p.coefficients.length = d + 1 ∧
      ∀ q : List K, q.length = d + 1 →
        squaredError ys (xs.map p.evaluate) ≤ squaredError ys (xs.map (evaluate q)) := by
  obtain ⟨c, hanswer, hlength, hminimal⟩ := hsolve
  let p : Scaled K := ⟨c, centre xs, spread (centre xs) xs⟩
  have henough : ¬ distinctCount xs < d + 1 := by
    rw [distinctCount_eq_card]
    omega
  have hfound : leastSquares solve xs ys d = .ok p := by
    unfold leastSquares
    rw [if_neg henough]
    unfold parameters at hanswer
    simp only [hanswer]
    rfl
  refine ⟨p, hfound, hlength, ?_⟩
  intro q hq
  obtain ⟨c', hlength', hsame⟩ :=
    exists_scaled (centre xs) (spread_pos (centre xs) xs).ne' q
  have hcompare := hminimal c' (hlength'.trans hq)
  rw [map_rowValue_design hlength, map_rowValue_design (hlength'.trans hq)] at hcompare
  unfold parameters at hcompare
  rw [List.map_map, List.map_map] at hcompare
  calc squaredError ys (xs.map p.evaluate)
      ≤ squaredError ys (xs.map (Scaled.mk c' p.shift p.scale).evaluate) := hcompare
    _ = squaredError ys (xs.map (evaluate q)) := by
        congr 1
        exact List.map_congr_left fun x _ => hsame x

end GrowthCurve.Polynomial
