import Mathlib
import GrowthCurve.Fit.Score

/-!
# Exact arithmetic

Fits, scores and figures are written over any scalars. Here the scalars are a
linearly ordered field with its own operations: nothing is rounded, every
number is finite and the Euclidean length is the true square root. Statements
about the mathematics of the program are made over these scalars.
-/

namespace GrowthCurve.Exact

theorem isGreatest_foldl_max {α : Type} [LinearOrder α] (a : α) (xs : List α) :
    IsGreatest {x | x ∈ a :: xs} (xs.foldl max a) :=
  List.max?_eq_some_iff.mp List.max?_cons'

theorem isLeast_foldl_min {α : Type} [LinearOrder α] (a : α) (xs : List α) :
    IsLeast {x | x ∈ a :: xs} (xs.foldl min a) :=
  List.min?_eq_some_iff.mp List.min?_cons'

variable {K : Type} [Field K] [LinearOrder K]

open Classical in
/-- The non-negative square root, where the field has one. -/
noncomputable def root (a : K) : K :=
  if h : ∃ r, 0 ≤ r ∧ r * r = a then h.choose else 0

noncomputable scoped instance scalar : Scalar K where
  ofNat n := n
  less a b := decide (a < b)
  atMost a b := decide (a ≤ b)
  same a b := decide (a = b)
  magnitude a := |a|
  isFinite _ := true
  length x y := root (x * x + y * y)
  precedes a b := decide (a ≤ b)

@[simp] theorem ofNat_eq (n : ℕ) : (Scalar.ofNat n : K) = n := rfl

@[simp] theorem less_eq (a b : K) : Scalar.less a b = decide (a < b) := rfl

@[simp] theorem atMost_eq (a b : K) : Scalar.atMost a b = decide (a ≤ b) := rfl

@[simp] theorem same_eq (a b : K) : Scalar.same a b = decide (a = b) := rfl

@[simp] theorem magnitude_eq (a : K) : Scalar.magnitude a = |a| := rfl

@[simp] theorem precedes_eq (a b : K) : Scalar.precedes a b = decide (a ≤ b) := rfl

@[simp] theorem max_eq (a b : K) : Scalar.max a b = max a b := by
  unfold Scalar.max
  by_cases h : a < b
  · simp [h, max_eq_right h.le]
  · simp [h, max_eq_left (not_lt.mp h)]

@[simp] theorem min_eq (a b : K) : Scalar.min a b = min a b := by
  unfold Scalar.min
  by_cases h : b < a
  · simp [h, min_eq_right h.le]
  · simp [h, min_eq_left (not_lt.mp h)]

@[simp] theorem foldl_max_eq (a : K) (xs : List K) : xs.foldl Scalar.max a = xs.foldl max a := by
  have hstep : (Scalar.max : K → K → K) = max := by
    funext a b
    exact max_eq a b
  rw [hstep]

@[simp] theorem power_eq (x : K) (k : ℕ) : Scalar.power x k = x ^ k := by
  induction k with
  | zero => simp [Scalar.power]
  | succ k ih =>
      simp only [Scalar.power, ih]
      exact (pow_succ x k).symm

/-- The sum starts at `-0`, which is `0` here. -/
@[simp] theorem sum_eq (xs : List K) : Scalar.sum xs = xs.sum := by
  rw [List.sum_eq_foldl]
  simp [Scalar.sum]

theorem tolerance_nonneg [IsStrictOrderedRing K] : 0 ≤ (Score.tolerance : K) :=
  NNRat.cast_nonneg _

theorem length_eq_sqrt (x y : ℝ) : Scalar.length x y = √(x ^ 2 + y ^ 2) := by
  have hroot : ∃ r, 0 ≤ r ∧ r * r = x * x + y * y :=
    ⟨√(x * x + y * y), Real.sqrt_nonneg _,
      Real.mul_self_sqrt (add_nonneg (mul_self_nonneg x) (mul_self_nonneg y))⟩
  show root (x * x + y * y) = _
  rw [root, dif_pos hroot]
  obtain ⟨hnonneg, hsquare⟩ := hroot.choose_spec
  have hsqrt := Real.sqrt_mul_self hnonneg
  rw [hsquare] at hsqrt
  rw [pow_two, pow_two]
  exact hsqrt.symm

end GrowthCurve.Exact
