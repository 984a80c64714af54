import Mathlib
import GrowthCurve.Proofs.Polynomial.Expansion

/-!
# Coefficients and values

A list of `n` coefficients is a polynomial of degree below `n`. Its values at
`n` distinct abscissae determine it, and there is one for every choice of these
values. Coefficients of sums, multiples and changes of unit are found through
the polynomials that they denote.
-/

section

open Polynomial

namespace GrowthCurve.Polynomial

open scoped Exact

variable {K : Type} [Field K]

/-! ## Polynomials of bounded degree -/

theorem coeff_toPoly (cs : List K) (k : ℕ) : (toPoly cs).coeff k = cs.getD k 0 := by
  induction cs generalizing k with
  | nil => simp
  | cons c cs ih =>
      cases k with
      | zero => simp
      | succ k => simp [ih]

theorem degree_toPoly_lt (cs : List K) : (toPoly cs).degree < cs.length := by
  rw [degree_lt_iff_coeff_zero]
  intro k hk
  rw [coeff_toPoly, List.getD_eq_default cs 0 hk]

theorem degree_toPoly_reverse_lt {cs : List K} {n : ℕ} (h : cs.length = n) :
    (toPoly cs.reverse).degree < n := by
  rw [← h, ← List.length_reverse]
  exact degree_toPoly_lt cs.reverse

theorem degree_lt_succ_iff {P : K[X]} {d : ℕ} : P.degree < (d + 1 : ℕ) ↔ P.natDegree ≤ d := by
  rw [degree_lt_iff_coeff_zero, natDegree_le_iff_coeff_eq_zero]
  exact Iff.rfl

/-- Lists of one length that denote the same polynomial are the same. -/
theorem eq_of_toPoly_eq {cs cs' : List K} (hlength : cs.length = cs'.length)
    (h : toPoly cs = toPoly cs') : cs = cs' := by
  apply List.ext_getElem hlength
  intro k hk hk'
  have hcoeff := congrArg (fun P => P.coeff k) h
  simpa [coeff_toPoly, hk, hk'] using hcoeff

/-- The coefficients of a polynomial of bounded degree, highest degree first,
with zeros up to the bound. -/
def coefficients (P : K[X]) (n : ℕ) : List K :=
  ((List.range n).map P.coeff).reverse

theorem length_coefficients (P : K[X]) (n : ℕ) : (coefficients P n).length = n := by
  simp [coefficients]

theorem toPoly_reverse_coefficients {P : K[X]} {n : ℕ} (hP : P.degree < n) :
    toPoly (coefficients P n).reverse = P := by
  ext k
  rw [coefficients, List.reverse_reverse, coeff_toPoly]
  by_cases hk : k < n
  · simp [hk]
  · rw [List.getD_eq_default _ _ (by simpa using hk)]
    exact ((degree_lt_iff_coeff_zero P n).mp hP k (not_lt.mp hk)).symm

/-- Some polynomial takes any values at distinct abscissae. -/
theorem exists_interpolating {xs ys : List K} (hnodup : xs.Nodup)
    (hlength : xs.length = ys.length) :
    ∃ P : K[X], P.degree < xs.length ∧ xs.map (P.eval ·) = ys := by
  let node : Fin xs.length → K := fun i => xs[i]
  let value : Fin xs.length → K := fun i => ys[i]
  have hinjective : Set.InjOn node (Finset.univ : Finset (Fin xs.length)) :=
    fun i _ j _ hij => Fin.ext (hnodup.getElem_inj_iff.mp hij)
  have hdegree := Lagrange.degree_interpolate_lt value hinjective
  rw [Finset.card_univ, Fintype.card_fin] at hdegree
  refine ⟨_, hdegree, List.ext_getElem (by rw [List.length_map, hlength]) ?_⟩
  intro i hi _
  rw [List.length_map] at hi
  rw [List.getElem_map]
  exact Lagrange.eval_interpolate_at_node value hinjective
    (Finset.mem_univ (⟨i, hi⟩ : Fin xs.length))

/-! ## Coefficients with given values -/

variable [LinearOrder K]

theorem evaluate_coefficients {P : K[X]} {n : ℕ} (hP : P.degree < n) (x : K) :
    evaluate (coefficients P n) x = P.eval x := by
  rw [evaluate_eq_eval, toPoly_reverse_coefficients hP]

theorem exists_coefficients {P : K[X]} {n : ℕ} (hP : P.degree < n) :
    ∃ cs : List K, cs.length = n ∧ ∀ x, evaluate cs x = P.eval x :=
  ⟨coefficients P n, length_coefficients P n, evaluate_coefficients hP⟩

/-- As many distinct abscissae as coefficients tell two polynomials apart. -/
theorem eq_of_evaluate_eq {n : ℕ} {cs cs' xs : List K} (hcs : cs.length = n)
    (hcs' : cs'.length = n) (hdistinct : n ≤ xs.toFinset.card)
    (hvalues : ∀ x ∈ xs, evaluate cs x = evaluate cs' x) : cs = cs' := by
  have hcard : (n : WithBot ℕ) ≤ xs.toFinset.card := by exact_mod_cast hdistinct
  have hpoly : toPoly cs.reverse = toPoly cs'.reverse := by
    apply eq_of_degrees_lt_of_eval_finset_eq xs.toFinset
    · exact (degree_toPoly_reverse_lt hcs).trans_le hcard
    · exact (degree_toPoly_reverse_lt hcs').trans_le hcard
    · intro x hx
      rw [← evaluate_eq_eval, ← evaluate_eq_eval]
      exact hvalues x (List.mem_toFinset.mp hx)
  have hlength : cs.reverse.length = cs'.reverse.length := by
    rw [List.length_reverse, List.length_reverse, hcs, hcs']
  exact List.reverse_injective (eq_of_toPoly_eq hlength hpoly)

theorem exists_midpoint {n : ℕ} {cs cs' : List K} (hcs : cs.length = n) (hcs' : cs'.length = n) :
    ∃ m : List K, m.length = n ∧
      ∀ x, evaluate m x = (evaluate cs x + evaluate cs' x) / 2 := by
  have hdegree : ((2⁻¹ : K) • (toPoly cs.reverse + toPoly cs'.reverse)).degree < n := by
    refine lt_of_le_of_lt (degree_smul_le _ _) ?_
    exact lt_of_le_of_lt (degree_add_le _ _)
      (max_lt (degree_toPoly_reverse_lt hcs) (degree_toPoly_reverse_lt hcs'))
  obtain ⟨m, hm, hevaluate⟩ := exists_coefficients hdegree
  refine ⟨m, hm, fun x => ?_⟩
  rw [hevaluate, eval_smul, eval_add, ← evaluate_eq_eval, ← evaluate_eq_eval]
  exact inv_mul_eq_div 2 _

/-- Values in another unit are values of a polynomial with as many coefficients,
as long as there is a constant coefficient to take the offset. -/
theorem exists_affine {n : ℕ} {cs : List K} (hcs : cs.length = n) (hn : 0 < n) (a b : K) :
    ∃ m : List K, m.length = n ∧ ∀ x, evaluate m x = a * evaluate cs x + b := by
  have hdegree : (a • toPoly cs.reverse + C b).degree < n := by
    refine lt_of_le_of_lt (degree_add_le _ _) (max_lt ?_ ?_)
    · exact lt_of_le_of_lt (degree_smul_le _ _) (degree_toPoly_reverse_lt hcs)
    · exact lt_of_le_of_lt degree_C_le (by exact_mod_cast hn)
  obtain ⟨m, hm, hevaluate⟩ := exists_coefficients hdegree
  refine ⟨m, hm, fun x => ?_⟩
  rw [hevaluate, eval_add, eval_smul, eval_C, ← evaluate_eq_eval]
  rfl

/-- Over abscissae in another unit there is a polynomial with the same values. -/
theorem exists_rescaled [IsStrictOrderedRing K] {a : K} (ha : a ≠ 0) (b : K) (cs : List K) :
    ∃ m : List K, m.length = cs.length ∧ ∀ x, evaluate m x = evaluate cs (a * x + b) := by
  -- `a * x + b` is the scaled variable of this shift and scale
  let p : Scaled K := ⟨cs.reverse, -b / a, a⁻¹⟩
  refine ⟨p.coefficientsHighestFirst, ?_, fun x => ?_⟩
  · rw [Scaled.length_coefficientsHighestFirst, List.length_reverse]
  · have hparameter : p.parameter x = a * x + b := by
      show (x - -b / a) / a⁻¹ = a * x + b
      field_simp
      ring
    rw [Scaled.evaluate_coefficientsHighestFirst, Scaled.evaluate, List.reverse_reverse, hparameter]

end GrowthCurve.Polynomial

end
