import Mathlib
import GrowthCurve.Proofs.Fit.Closest
import GrowthCurve.Proofs.Polynomial.Line

/-!
# Order and units of the samples

The shift, the scale and the matrix of a fit all change with the order of the
samples and with the units in which they are given. The closest polynomial only
changes its unit, and there is just one, so that the solver has no choice but to
find the same curve again.
-/

namespace GrowthCurve.Fit

open GrowthCurve.Polynomial (squaredError)
open scoped Exact

/-! ## Samples in another order -/

/-- The values at these positions, in the order of the positions. -/
def arrange {α : Type} (order : List ℕ) (values : List α) : List α :=
  order.filterMap (values[·]?)

section

variable {α β γ : Type} {order : List ℕ}

theorem arrange_range (values : List α) : arrange (List.range values.length) values = values := by
  unfold arrange
  induction values with
  | nil => rfl
  | cons x values ih =>
      rw [List.length_cons, List.range_succ_eq_map, List.filterMap_cons, List.filterMap_map]
      exact congrArg (x :: ·) ih

/-- Positions that are a permutation rearrange the values. -/
theorem arrange_perm {values : List α} (h : order.Perm (List.range values.length)) :
    (arrange order values).Perm values := by
  have hpositions := h.filterMap (values[·]?)
  rwa [← arrange, ← arrange, arrange_range] at hpositions

theorem arrange_map (f : α → β) (order : List ℕ) (values : List α) :
    arrange order (values.map f) = (arrange order values).map f := by
  simp [arrange, List.map_filterMap, List.getElem?_map]

theorem arrange_zipWith (f : α → β → γ) {xs : List α} {ys : List β} (h : xs.length = ys.length)
    (order : List ℕ) :
    arrange order (List.zipWith f xs ys) =
      List.zipWith f (arrange order xs) (arrange order ys) := by
  unfold arrange
  induction order with
  | nil => rfl
  | cons i order ih =>
      by_cases hi : i < xs.length
      · have hi' : i < ys.length := h ▸ hi
        simp [hi, hi', ih]
      · have hi' : ¬ i < ys.length := h ▸ hi
        simp [hi, hi', ih]

theorem length_arrange {values : List α} (h : order.Perm (List.range values.length)) :
    (arrange order values).length = values.length :=
  (arrange_perm h).length_eq

theorem card_arrange [DecidableEq α] {values : List α}
    (h : order.Perm (List.range values.length)) :
    (arrange order values).toFinset.card = values.toFinset.card := by
  rw [List.toFinset_eq_of_perm _ _ (arrange_perm h)]

end

variable {K : Type} [Field K] {xs ys c : List K} {n : ℕ}

theorem squaredError_arrange {order : List ℕ} {ps : List K} (hlength : ys.length = ps.length)
    (horder : order.Perm (List.range ys.length)) :
    squaredError (arrange order ys) (arrange order ps) = squaredError ys ps := by
  unfold squaredError
  rw [← arrange_zipWith _ hlength]
  apply (arrange_perm ?_).sum_eq
  rwa [List.length_zipWith, ← hlength, Nat.min_self]

variable [LinearOrder K] [IsStrictOrderedRing K]

/-! ## The closest polynomial -/

namespace Closest

theorem arranged {order : List ℕ} (h : Closest xs ys n c) (hlength : xs.length = ys.length)
    (horder : order.Perm (List.range xs.length)) :
    Closest (arrange order xs) (arrange order ys) n c := by
  have herror : ∀ q : List K,
      squaredError (arrange order ys) ((arrange order xs).map (Polynomial.evaluate q)) =
        1 * squaredError ys (xs.map (Polynomial.evaluate q)) := by
    intro q
    rw [← arrange_map, one_mul]
    exact squaredError_arrange (by rw [List.length_map, hlength]) (hlength ▸ horder)
  exact h.transport zero_le_one h.length_eq (herror c) fun q hq => ⟨q, hq, herror q⟩

/-- In another unit of the abscissae the curve takes its values at the same points. -/
theorem rescaled {a : K} (h : Closest xs ys n c) (ha : a ≠ 0) (b : K) :
    ∃ c' : List K, Closest (xs.map (a * · + b)) ys n c' ∧
      ∀ z, Polynomial.evaluate c' (a * z + b) = Polynomial.evaluate c z := by
  have herror : ∀ {q q' : List K},
      (∀ z, Polynomial.evaluate q' (a * z + b) = Polynomial.evaluate q z) →
        squaredError ys ((xs.map (a * · + b)).map (Polynomial.evaluate q')) =
          1 * squaredError ys (xs.map (Polynomial.evaluate q)) := by
    intro q q' hsame
    rw [List.map_map, one_mul, List.map_congr_left fun x _ => (hsame x).symm]
    rfl
  obtain ⟨c', hlength', hback⟩ := Polynomial.exists_rescaled (inv_ne_zero ha) (-b / a) c
  have hsame : ∀ z, Polynomial.evaluate c' (a * z + b) = Polynomial.evaluate c z := by
    intro z
    rw [hback]
    congr 1
    field_simp
    ring
  refine ⟨c', h.transport zero_le_one (hlength'.trans h.length_eq) (herror hsame) ?_, hsame⟩
  intro q' hq'
  obtain ⟨q, hlength, hvalues⟩ := Polynomial.exists_rescaled ha b q'
  exact ⟨q, hlength.trans hq', herror fun z => (hvalues z).symm⟩

/-- In another unit of the target the values of the curve change their unit. -/
theorem affine {a : K} (h : Closest xs ys n c) (hn : 0 < n) (ha : a ≠ 0) (b : K) :
    ∃ c' : List K, Closest xs (ys.map (a * · + b)) n c' ∧
      ∀ z, Polynomial.evaluate c' z = a * Polynomial.evaluate c z + b := by
  have herror : ∀ {q q' : List K},
      (∀ z, Polynomial.evaluate q' z = a * Polynomial.evaluate q z + b) →
        squaredError (ys.map (a * · + b)) (xs.map (Polynomial.evaluate q')) =
          a ^ 2 * squaredError ys (xs.map (Polynomial.evaluate q)) := by
    intro q q' hunit
    rw [← Score.squaredError_map_affine a b, List.map_map,
      List.map_congr_left fun x _ => hunit x]
    rfl
  obtain ⟨c', hlength', hunit⟩ := Polynomial.exists_affine h.length_eq hn a b
  refine ⟨c', h.transport (sq_nonneg a) hlength' (herror hunit) ?_, hunit⟩
  intro q' hq'
  obtain ⟨q, hlength, hvalues⟩ := Polynomial.exists_affine hq' hn a⁻¹ (-b / a)
  refine ⟨q, hlength, herror fun z => ?_⟩
  rw [hvalues]
  field_simp
  ring

end Closest

/-! ## Distinct abscissae -/

theorem card_map_affine {a : K} (ha : a ≠ 0) (b : K) :
    (xs.map (a * · + b)).toFinset.card = xs.toFinset.card := by
  have hinjective : Function.Injective (a * · + b) :=
    (add_left_injective b).comp (mul_right_injective₀ ha)
  rw [List.card_toFinset, List.card_toFinset, List.dedup_map_of_injective hinjective,
    List.length_map]

/-! ## Fits -/

variable {solve : Polynomial.Solver K} {d : ℕ} {f : Fit K}

namespace LeastSquares

theorem exists_arranged {order : List ℕ} (hf : f.LeastSquares xs ys d)
    (hlength : xs.length = ys.length) (hdistinct : d + 1 ≤ xs.toFinset.card)
    (horder : order.Perm (List.range xs.length))
    (hsolve : Solves solve (arrange order xs) (arrange order ys) d) :
    ∃ g, computeWith solve (arrange order xs) (arrange order ys) d = .ok g ∧
      g.predicted = arrange order f.predicted ∧
      g.coefficients = f.coefficients ∧ g.rSquared = f.rSquared := by
  have horder' : order.Perm (List.range ys.length) := hlength ▸ horder
  have hlength' : (arrange order xs).length = (arrange order ys).length := by
    rw [length_arrange horder, length_arrange horder', hlength]
  have hdistinct' : d + 1 ≤ (arrange order xs).toFinset.card := by
    rwa [card_arrange horder]
  obtain ⟨g, hfit, hg, hcoefficients⟩ := exists_leastSquares_of_closest hlength' hdistinct' hsolve
    (hf.closest.arranged hlength horder)
  have hvalues : g.predicted = arrange order f.predicted := by
    rw [hg.predicted_eq, hf.predicted_eq, hcoefficients, arrange_map]
  have hpredicted : ys.length = f.predicted.length := by
    rw [hf.predicted_eq, List.length_map, hlength]
  refine ⟨g, hfit, hvalues, hcoefficients, ?_⟩
  rw [hg.rSquared_eq, hf.rSquared_eq, hvalues, squaredError_arrange hpredicted horder',
    Score.squaresAbout_mean_perm (arrange_perm horder')]

theorem exists_rescaled {a : K} (hf : f.LeastSquares xs ys d) (hlength : xs.length = ys.length)
    (hdistinct : d + 1 ≤ xs.toFinset.card) (ha : a ≠ 0) (b : K)
    (hsolve : Solves solve (xs.map (a * · + b)) ys d) :
    ∃ g, computeWith solve (xs.map (a * · + b)) ys d = .ok g ∧
      g.predicted = f.predicted ∧ g.rSquared = f.rSquared ∧
      ∀ z, g.evaluate (a * z + b) = f.evaluate z := by
  obtain ⟨c, hclosest, hsame⟩ := hf.closest.rescaled ha b
  have hlength' : (xs.map (a * · + b)).length = ys.length := by
    rw [List.length_map, hlength]
  have hdistinct' : d + 1 ≤ (xs.map (a * · + b)).toFinset.card := by
    rwa [card_map_affine ha]
  obtain ⟨g, hfit, hg, hcoefficients⟩ :=
    exists_leastSquares_of_closest hlength' hdistinct' hsolve hclosest
  have hvalues : g.predicted = f.predicted := by
    rw [hg.predicted_eq, hf.predicted_eq, hcoefficients, List.map_map]
    exact List.map_congr_left fun x _ => hsame x
  refine ⟨g, hfit, hvalues, ?_, fun z => ?_⟩
  · rw [hg.rSquared_eq, hf.rSquared_eq, hvalues]
  · rw [hg.evaluate_eq, hf.evaluate_eq, hcoefficients, hsame]

theorem exists_affine {a : K} (hf : f.LeastSquares xs ys d) (hlength : xs.length = ys.length)
    (hdistinct : d + 1 ≤ xs.toFinset.card) (ha : a ≠ 0) (b : K)
    (hsolve : Solves solve xs (ys.map (a * · + b)) d) :
    ∃ g, computeWith solve xs (ys.map (a * · + b)) d = .ok g ∧
      g.predicted = f.predicted.map (a * · + b) ∧ g.rSquared = f.rSquared := by
  obtain ⟨c, hclosest, hunit⟩ := hf.closest.affine d.succ_pos ha b
  have hlength' : xs.length = (ys.map (a * · + b)).length := by
    rw [List.length_map, hlength]
  obtain ⟨g, hfit, hg, hcoefficients⟩ :=
    exists_leastSquares_of_closest hlength' hdistinct hsolve hclosest
  have hvalues : g.predicted = f.predicted.map (a * · + b) := by
    rw [hg.predicted_eq, hf.predicted_eq, hcoefficients, List.map_map]
    exact List.map_congr_left fun x _ => hunit x
  have hys : ys ≠ [] := by
    rintro rfl
    rw [List.length_eq_zero_iff.mp hlength] at hdistinct
    simp at hdistinct
  refine ⟨g, hfit, hvalues, ?_⟩
  rw [hg.rSquared_eq, hf.rSquared_eq, hvalues, Score.squaredError_map_affine,
    Score.squaresAbout_mean_map_affine hys, mul_div_mul_left _ _ (pow_ne_zero 2 ha)]

end LeastSquares

/-- **Fits follow their samples**: they are the same in every order of the samples and
in all units, apart from the order of the predictions and the units of what they are
given in. The closest polynomial changes its unit with them and nothing else, and there
is just one, so that any solver that minimises finds the same curve again. -/
theorem fit_follows_samples (hlength : xs.length = ys.length)
    (hdistinct : d + 1 ≤ xs.toFinset.card) (hsolve : Solves solve xs ys d) :
    ∃ f, computeWith solve xs ys d = .ok f ∧
      (∀ order : List ℕ, order.Perm (List.range xs.length) →
        Solves solve (arrange order xs) (arrange order ys) d →
        ∃ g, computeWith solve (arrange order xs) (arrange order ys) d = .ok g ∧
          g.predicted = arrange order f.predicted ∧
          g.coefficients = f.coefficients ∧ g.rSquared = f.rSquared) ∧
      (∀ a b : K, a ≠ 0 → Solves solve (xs.map (a * · + b)) ys d →
        ∃ g, computeWith solve (xs.map (a * · + b)) ys d = .ok g ∧
          g.predicted = f.predicted ∧ g.rSquared = f.rSquared ∧
          ∀ z, g.evaluate (a * z + b) = f.evaluate z) ∧
      (∀ a b : K, a ≠ 0 → Solves solve xs (ys.map (a * · + b)) d →
        ∃ g, computeWith solve xs (ys.map (a * · + b)) d = .ok g ∧
          g.predicted = f.predicted.map (a * · + b) ∧ g.rSquared = f.rSquared) := by
  obtain ⟨f, hfit, hf⟩ := exists_leastSquares hlength hdistinct hsolve
  refine ⟨f, hfit, ?_, ?_, ?_⟩
  · exact fun _ horder => hf.exists_arranged hlength hdistinct horder
  · exact fun _ b ha => hf.exists_rescaled hlength hdistinct ha b
  · exact fun _ b ha => hf.exists_affine hlength hdistinct ha b

theorem fit_follows_samples_three :
    2 ≤ [0, 1, (2 : ℚ)].toFinset.card ∧
    Solves Polynomial.Line.solve [0, 1, (2 : ℚ)] [1, 3, 2] 1 ∧
    ∃ f, computeWith Polynomial.Line.solve [0, 1, (2 : ℚ)] [1, 3, 2] (1 : ℕ) = .ok f ∧
      (∃ g, computeWith Polynomial.Line.solve [2, 0, (1 : ℚ)] [2, 1, 3] (1 : ℕ) = .ok g ∧
        g.predicted = arrange [2, 0, 1] f.predicted ∧
        g.coefficients = f.coefficients ∧ g.rSquared = f.rSquared) ∧
      (∃ g, computeWith Polynomial.Line.solve [3, 1, (-1 : ℚ)] [1, 3, 2] (1 : ℕ) = .ok g ∧
        g.predicted = f.predicted ∧ g.rSquared = f.rSquared ∧
        ∀ z, g.evaluate (-2 * z + 3) = f.evaluate z) ∧
      ∃ g, computeWith Polynomial.Line.solve [0, 1, (2 : ℚ)] [1, -3, -1] (1 : ℕ) = .ok g ∧
        g.predicted = f.predicted.map (-2 * · + 3) ∧ g.rSquared = f.rSquared := by
  have hdistinct : 2 ≤ [0, 1, (2 : ℚ)].toFinset.card := by decide
  have hlength : [0, 1, (2 : ℚ)].length = [1, 3, (2 : ℚ)].length := rfl
  have hsolve : Solves Polynomial.Line.solve [0, 1, (2 : ℚ)] [1, 3, 2] 1 :=
    Polynomial.Line.findsMinimiser_line hlength hdistinct
  have hfactor : (-2 : ℚ) ≠ 0 := by norm_num
  have hxs : [0, 1, (2 : ℚ)].map (-2 * · + 3) = [3, 1, -1] := by norm_num
  have hys : [1, 3, (2 : ℚ)].map (-2 * · + 3) = [1, -3, -1] := by norm_num
  have harranged : Solves Polynomial.Line.solve [2, 0, (1 : ℚ)] [2, 1, 3] 1 :=
    Polynomial.Line.findsMinimiser_line (by rfl) (by decide)
  have hrescaled : Solves Polynomial.Line.solve [3, 1, (-1 : ℚ)] [1, 3, 2] 1 :=
    Polynomial.Line.findsMinimiser_line (by rfl) (by decide)
  have haffine : Solves Polynomial.Line.solve [0, 1, (2 : ℚ)] [1, -3, -1] 1 :=
    Polynomial.Line.findsMinimiser_line (by rfl) hdistinct
  obtain ⟨f, hfit, horder, habscissae, htarget⟩ := fit_follows_samples hlength hdistinct hsolve
  refine ⟨hdistinct, hsolve, f, hfit, horder [2, 0, 1] (by decide) harranged, ?_, ?_⟩
  · rw [← hxs] at hrescaled ⊢
    exact habscissae (-2) 3 hfactor hrescaled
  · rw [← hys] at haffine ⊢
    exact htarget (-2) 3 hfactor haffine

end GrowthCurve.Fit
