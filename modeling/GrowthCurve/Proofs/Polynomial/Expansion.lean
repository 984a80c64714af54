import Mathlib
import GrowthCurve.Polynomial.Basic
import GrowthCurve.Proofs.Exact

/-!
# Expansion of scaled polynomials

A list of coefficients denotes a polynomial. Horner's scheme evaluates it, and
the binomial expansion of a scaled polynomial denotes its composition with
`(x - shift) / scale`. So both ways to evaluate a fitted polynomial agree over
exact scalars.
-/

section

open Polynomial

namespace GrowthCurve.Polynomial

/-! ## Lengths -/

namespace Scaled

variable {α : Type} [Scalar α]

theorem length_binomialTerms (c b inverse : α) (j r : ℕ) (binomial : α) :
    (binomialTerms c b inverse j r binomial).length = r + 1 := by
  induction r generalizing j binomial with
  | zero => rfl
  | succ r ih => simp [binomialTerms, ih]

theorem length_expandTerm (p : Scaled α) (c : α) (k : ℕ) :
    (p.expandTerm c k).length = k + 1 :=
  length_binomialTerms _ _ _ _ _ _

theorem length_addTo (as bs : List α) : (addTo as bs).length = as.length := by
  induction as generalizing bs with
  | nil => cases bs <;> rfl
  | cons a as ih => cases bs <;> simp [addTo, ih]

theorem length_expansion (p : Scaled α) : p.expansion.length = p.coefficients.length := by
  have hfold : ∀ (cks : List (α × ℕ)) (total : List α),
      (cks.foldl (fun t ck => addTo t (p.expandTerm ck.1 ck.2)) total).length =
        total.length := by
    intro cks
    induction cks with
    | nil => simp
    | cons ck cks ih =>
        intro total
        rw [List.foldl_cons, ih, length_addTo]
  unfold expansion
  rw [hfold, List.length_replicate]

theorem length_coefficientsHighestFirst (p : Scaled α) :
    p.coefficientsHighestFirst.length = p.coefficients.length := by
  unfold coefficientsHighestFirst
  rw [List.length_reverse, length_expansion]

end Scaled

open scoped Exact

variable {K : Type} [Field K]

/-- The polynomial with these coefficients, lowest degree first. -/
noncomputable def toPoly : List K → K[X]
  | [] => 0
  | c :: cs => C c + X * toPoly cs

@[simp] theorem toPoly_nil : toPoly ([] : List K) = 0 := rfl

@[simp] theorem toPoly_cons (c : K) (cs : List K) :
    toPoly (c :: cs) = C c + X * toPoly cs := rfl

@[simp] theorem toPoly_replicate_zero (n : ℕ) :
    toPoly (List.replicate n (0 : K)) = 0 := by
  induction n with
  | zero => rfl
  | succ n ih => simp [List.replicate_succ, ih]

/-! ## Horner's scheme -/

variable [LinearOrder K]

theorem evaluate_append (cs : List K) (c x : K) :
    evaluate (cs ++ [c]) x = evaluate cs x * x + c := by
  unfold evaluate
  rw [List.foldl_append]
  rfl

/-- Horner's scheme evaluates the polynomial of its coefficients. -/
theorem evaluate_reverse (cs : List K) (x : K) :
    evaluate cs.reverse x = (toPoly cs).eval x := by
  induction cs with
  | nil => simp [evaluate]
  | cons c cs ih =>
      rw [List.reverse_cons, evaluate_append, ih, toPoly_cons]
      simp only [eval_add, eval_C, eval_mul, eval_X]
      ring

theorem evaluate_eq_eval (cs : List K) (x : K) :
    evaluate cs x = (toPoly cs.reverse).eval x := by
  rw [← evaluate_reverse, List.reverse_reverse]

namespace Scaled

/-- A scaled polynomial denotes a polynomial in the shifted and scaled variable. -/
theorem evaluate_eq_eval (p : Scaled K) (x : K) :
    p.evaluate x = (toPoly p.coefficients).eval (p.parameter x) :=
  evaluate_reverse p.coefficients _

/-! ## The summand of one degree -/

/-- Multiplying by what is left and dividing by what is done turns one
binomial coefficient into the next. -/
theorem choose_step [IsStrictOrderedRing K] (j r : ℕ) :
    (((j + (r + 1)).choose j : ℕ) : K) * ((r + 1 : ℕ) : K) / ((j + 1 : ℕ) : K) =
      ((j + (r + 1)).choose (j + 1) : ℕ) := by
  have hpos : ((j + 1 : ℕ) : K) ≠ 0 := Nat.cast_ne_zero.mpr (Nat.succ_ne_zero j)
  have hstep := Nat.choose_succ_right_eq (j + (r + 1)) j
  rw [Nat.add_sub_cancel_left] at hstep
  rw [div_eq_iff hpos]
  exact_mod_cast hstep.symm

/-- The running binomial coefficient is the right one from every power `j` on:
what is written from there are the summands `j` to `j + r` of the binomial
theorem. -/
theorem toPoly_binomialTerms [IsStrictOrderedRing K] (c b inverse : K) (j r : ℕ) :
    toPoly (binomialTerms c b inverse j r ((j + r).choose j : ℕ)) =
      ∑ i ∈ Finset.range (r + 1),
        C (c * ((j + r).choose (j + i) : ℕ) * b ^ (r - i) * inverse) * X ^ i := by
  induction r generalizing j with
  | zero => simp [binomialTerms]
  | succ r ih =>
      have htail := ih (j + 1)
      rw [show j + 1 + r = j + (r + 1) by omega] at htail
      rw [Finset.sum_range_succ', binomialTerms, toPoly_cons]
      simp only [Exact.ofNat_eq, Exact.power_eq]
      rw [choose_step, htail, Finset.mul_sum, add_comm]
      refine congrArg₂ (· + ·) ?_ ?_
      · apply Finset.sum_congr rfl
        intro i _
        rw [show j + 1 + i = j + (i + 1) by omega, Nat.add_sub_add_right, pow_succ]
        ring
      · simp

/-- The summand of degree `k` is expanded by the binomial theorem. -/
theorem toPoly_expandTerm [IsStrictOrderedRing K] (p : Scaled K) (c : K) (k : ℕ) :
    toPoly (p.expandTerm c k) =
      C c * (C p.scale⁻¹ * (X - C p.shift)) ^ k := by
  have hterms := toPoly_binomialTerms c (-p.shift) (1 / p.scale ^ k) 0 k
  simp only [Nat.zero_add, Nat.choose_zero_right, Nat.cast_one] at hterms
  unfold expandTerm
  simp only [Exact.ofNat_eq, Exact.power_eq, Nat.cast_one]
  rw [hterms, sub_eq_add_neg, ← C_neg, mul_pow, add_pow, Finset.mul_sum, Finset.mul_sum]
  apply Finset.sum_congr rfl
  intro i _
  simp only [C_mul, C_pow, one_div, ← inv_pow, C_eq_natCast]
  ring

/-! ## The sum over all degrees -/

theorem toPoly_addTo {as bs : List K} (h : bs.length ≤ as.length) :
    toPoly (addTo as bs) = toPoly as + toPoly bs := by
  induction as generalizing bs with
  | nil =>
      have hbs : bs = [] := List.length_eq_zero_iff.mp (Nat.le_zero.mp h)
      simp [hbs, addTo]
  | cons a as ih =>
      cases bs with
      | nil => simp [addTo]
      | cons b bs =>
          have htail := ih (Nat.le_of_succ_le_succ h)
          simp only [addTo, toPoly_cons, htail, C_add]
          ring

/-- Expanding the coefficients from degree `k` on adds the rest of the
composition. The total is long enough for every summand. -/
theorem toPoly_foldl_expandTerm [IsStrictOrderedRing K] (p : Scaled K) (cs : List K)
    (k : ℕ) (total : List K) (h : k + cs.length ≤ total.length) :
    toPoly ((cs.zipIdx k).foldl (fun t ck => addTo t (p.expandTerm ck.1 ck.2)) total) =
      toPoly total + (C p.scale⁻¹ * (X - C p.shift)) ^ k *
        (toPoly cs).comp (C p.scale⁻¹ * (X - C p.shift)) := by
  induction cs generalizing k total with
  | nil => simp
  | cons c cs ih =>
      rw [List.length_cons] at h
      have hfits : (p.expandTerm c k).length ≤ total.length := by
        rw [length_expandTerm]
        omega
      have hrest : k + 1 + cs.length ≤ (addTo total (p.expandTerm c k)).length := by
        rw [length_addTo]
        omega
      rw [List.zipIdx_cons, List.foldl_cons, ih (k + 1) _ hrest,
        toPoly_addTo hfits, toPoly_expandTerm, toPoly_cons]
      simp only [add_comp, C_comp, mul_comp, X_comp, pow_succ]
      ring

/-- The expansion denotes the composition with the change of variable. -/
theorem toPoly_expansion [IsStrictOrderedRing K] (p : Scaled K) :
    toPoly p.expansion =
      (toPoly p.coefficients).comp (C p.scale⁻¹ * (X - C p.shift)) := by
  unfold expansion
  rw [toPoly_foldl_expandTerm p p.coefficients 0 _ (by simp)]
  simp

/-- The coefficients over the powers of `x` and those over the powers of the
scaled variable have the same values. -/
theorem evaluate_coefficientsHighestFirst [IsStrictOrderedRing K] (p : Scaled K) (x : K) :
    Polynomial.evaluate p.coefficientsHighestFirst x = p.evaluate x := by
  unfold coefficientsHighestFirst
  rw [evaluate_reverse, toPoly_expansion, eval_comp, evaluate_eq_eval]
  congr 1
  simp only [eval_mul, eval_C, eval_sub, eval_X, parameter]
  exact (inv_mul_eq_div p.scale (x - p.shift))

end Scaled

end GrowthCurve.Polynomial

end
