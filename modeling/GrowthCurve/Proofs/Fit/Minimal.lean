import Mathlib
import GrowthCurve.Proofs.Fit.Computed
import GrowthCurve.Proofs.Fit.Score
import GrowthCurve.Proofs.Polynomial.LeastSquares

/-!
# Fits are least-squares fits

Over exact scalars a fit is computed whenever there are enough distinct
abscissae and the solver finds a minimiser. No polynomial of its degree comes
closer to the target than its predictions, which are also the values of its
coefficients in `x`.
-/

namespace GrowthCurve.Fit

open GrowthCurve.Polynomial (squaredError FindsMinimiser parameters design)
open scoped Exact

variable {K : Type} [Field K] [LinearOrder K] {xs ys : List K}

/-! ## The minimum -/

/-- Constants are among the polynomials of every degree. -/
theorem exists_values_of_constant (hlength : xs.length = ys.length) (h : Score.Constant ys)
    (d : ℕ) : ∃ q : List K, q.length = d + 1 ∧ xs.map (Polynomial.evaluate q) = ys := by
  obtain ⟨y, hall⟩ := h
  refine ⟨List.replicate d 0 ++ [y], by simp, ?_⟩
  rw [List.eq_replicate_of_mem hall, ← hlength, ← List.map_const']
  exact List.map_congr_left fun x _ => Polynomial.evaluate_constant d y x

variable [IsStrictOrderedRing K] {solve : Polynomial.Solver K} {d : ℕ}

/-- Nothing comes closer to a target than the target itself. -/
theorem eq_of_squaredError_le {ps qs : List K} (hlength : ys.length = ps.length)
    (hleast : squaredError ys ps ≤ squaredError ys qs) (hqs : qs = ys) : ps = ys := by
  rw [hqs, Polynomial.squaredError_self] at hleast
  exact Polynomial.eq_of_squaredError_le_zero hlength hleast

/-- With enough distinct abscissae and a minimiser from the solver nothing
stands in the way of a fit, and its score is the coefficient of determination. -/
theorem exists_scored_curve (hlength : xs.length = ys.length)
    (hdistinct : d + 1 ≤ xs.toFinset.card)
    (hsolve : FindsMinimiser solve (design (parameters xs) (d + 1)) (d + 1) ys) :
    ∃ p, computeWith solve xs ys d =
        .ok ⟨d, p.coefficientsHighestFirst, xs.map p.evaluate,
          1 - squaredError ys (xs.map p.evaluate) / Score.squaresAbout (mean ys) ys, some p⟩ ∧
      p.coefficients.length = d + 1 ∧
      ∀ q : List K, q.length = d + 1 →
        squaredError ys (xs.map p.evaluate) ≤ squaredError ys (xs.map (Polynomial.evaluate q)) := by
  obtain ⟨p, hfound, hcoefficients, hminimal⟩ :=
    Polynomial.leastSquares_minimises hdistinct hsolve
  have hsamples : d + 1 ≤ xs.length := hdistinct.trans (List.toFinset_card_le xs)
  have hys : ys ≠ [] := by
    intro hempty
    rw [hlength, hempty, List.length_nil] at hsamples
    omega
  have hpredicted : ys.length = (xs.map p.evaluate).length := by rw [List.length_map, hlength]
  have hconstant : Score.Constant ys → xs.map p.evaluate = ys := by
    intro hconstant
    obtain ⟨q, hq, hvalues⟩ := exists_values_of_constant hlength hconstant d
    exact eq_of_squaredError_le hpredicted (hminimal q hq) hvalues
  exact ⟨p, computeWith_eq_ok_iff.mpr ⟨Int.natCast_nonneg d, hlength, hsamples, p, _,
    hfound, Score.rSquared_eq hys hpredicted hconstant, rfl⟩, hcoefficients, hminimal⟩

theorem exists_minimal_curve (hlength : xs.length = ys.length)
    (hdistinct : d + 1 ≤ xs.toFinset.card)
    (hsolve : FindsMinimiser solve (design (parameters xs) (d + 1)) (d + 1) ys) :
    ∃ p score, computeWith solve xs ys d =
        .ok ⟨d, p.coefficientsHighestFirst, xs.map p.evaluate, score, some p⟩ ∧
      p.coefficients.length = d + 1 ∧
      ∀ q : List K, q.length = d + 1 →
        squaredError ys (xs.map p.evaluate) ≤ squaredError ys (xs.map (Polynomial.evaluate q)) := by
  obtain ⟨p, hfit, hrest⟩ := exists_scored_curve hlength hdistinct hsolve
  exact ⟨p, _, hfit, hrest⟩

/-- The best line through `(0, 1)`, `(1, 3)` and `(2, 2)` is `2 + t / 2` over
`t = x - 1`: any other choice of coefficients adds two squares to the error. -/
theorem findsMinimiser_three_points :
    FindsMinimiser (fun _ _ _ => .ok [2, 1 / 2]) (design (parameters [0, 1, (2 : ℚ)]) 2) 2
      [1, 3, 2] := by
  have hparameters : parameters [0, 1, (2 : ℚ)] = [-1, 0, 1] := by
    norm_num [parameters, Polynomial.centre, Polynomial.spread]
  have hline : ([2, 1 / 2] : List ℚ).length = 2 := rfl
  refine ⟨[2, 1 / 2], rfl, hline, ?_⟩
  intro c hc
  rw [Polynomial.map_rowValue_design hline, Polynomial.map_rowValue_design hc, hparameters]
  obtain ⟨a, b, rfl⟩ := List.length_eq_two.mp hc
  -- this is by how much the error of `a + b t` exceeds the least one
  have hvertex : 0 ≤ 3 * (a - 2) ^ 2 + 2 * (b - 1 / 2) ^ 2 := by positivity
  norm_num [squaredError, Polynomial.evaluate]
  linarith

/-- **Fits are least squares**: a fit is computed from enough distinct abscissae, and
neither its predictions nor its coefficients are outdone by any polynomial in `x` of
its degree. The solver minimises over polynomials in the scaled variable only; that
these are the same ones is what the change of variable shows. -/
theorem fit_minimises_squares (hlength : xs.length = ys.length)
    (hdistinct : d + 1 ≤ xs.toFinset.card)
    (hsolve : FindsMinimiser solve (design (parameters xs) (d + 1)) (d + 1) ys) :
    ∃ f, computeWith solve xs ys d = .ok f ∧
      f.coefficients.length = d + 1 ∧
      f.predicted = xs.map (Polynomial.evaluate f.coefficients) ∧
      ∀ q : List K, q.length = d + 1 →
        squaredError ys f.predicted ≤ squaredError ys (xs.map (Polynomial.evaluate q)) ∧
        squaredError ys (xs.map (Polynomial.evaluate f.coefficients)) ≤
          squaredError ys (xs.map (Polynomial.evaluate q)) := by
  obtain ⟨p, score, hfit, hcoefficients, hminimal⟩ :=
    exists_minimal_curve hlength hdistinct hsolve
  have hexpand : xs.map p.evaluate = xs.map (Polynomial.evaluate p.coefficientsHighestFirst) :=
    List.map_congr_left fun x _ => (p.evaluate_coefficientsHighestFirst x).symm
  refine ⟨_, hfit, p.length_coefficientsHighestFirst.trans hcoefficients, hexpand, ?_⟩
  intro q hq
  refine ⟨hminimal q hq, ?_⟩
  rw [← hexpand]
  exact hminimal q hq

theorem fit_minimises_squares_three_points :
    2 ≤ [0, 1, (2 : ℚ)].toFinset.card ∧
    ∃ f, computeWith (fun _ _ _ => .ok [2, 1 / 2]) [0, 1, (2 : ℚ)] [1, 3, 2] (1 : ℕ) = .ok f ∧
      f.coefficients.length = 2 ∧
      f.predicted = [0, 1, 2].map (Polynomial.evaluate f.coefficients) ∧
      ∀ q : List ℚ, q.length = 2 →
        squaredError [1, 3, 2] f.predicted ≤
          squaredError [1, 3, 2] ([0, 1, 2].map (Polynomial.evaluate q)) ∧
        squaredError [1, 3, 2] ([0, 1, 2].map (Polynomial.evaluate f.coefficients)) ≤
          squaredError [1, 3, 2] ([0, 1, 2].map (Polynomial.evaluate q)) :=
  ⟨by decide, fit_minimises_squares rfl (by decide) findsMinimiser_three_points⟩

end GrowthCurve.Fit
