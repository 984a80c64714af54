import Mathlib

/-!
# Mantissas and what was cut off from them

A mantissa goes with an accuracy: where the exact number lies between it and
the next mantissa. The two bits behind a mantissa keep this through every shift,
so that rounding gives the integer nearest to the exact number.
-/

namespace GrowthCurve.Binary

open Float.Model UnpackedFloat

/-- The integer nearest to a number, the even one of two that are as near. -/
structure Nearest (x : ℚ) (n : ℤ) : Prop where
  near : |n - x| ≤ 1 / 2
  even : |n - x| = 1 / 2 → Even n

theorem nearest_intCast (n : ℤ) : Nearest n n := by
  constructor
  · norm_num
  · norm_num

theorem nearest_of_close {x : ℚ} {n : ℤ} (h : |n - x| < 1 / 2) : Nearest x n :=
  ⟨h.le, fun hhalf => absurd hhalf h.ne⟩

theorem Nearest.neg {x : ℚ} {n : ℤ} (h : Nearest x n) : Nearest (-x) (-n) := by
  have hsame : |((-n : ℤ) : ℚ) - -x| = |n - x| := by
    rw [← abs_neg]
    congr 1
    push_cast
    ring
  constructor
  · rw [hsame]
    exact h.near
  · rw [hsame]
    intro hhalf
    exact (h.even hhalf).neg

/-- Of two numbers the greater one has the greater nearest integer. -/
theorem Nearest.mono {x y : ℚ} {m n : ℤ} (hm : Nearest x m) (hn : Nearest y n) (h : x ≤ y) :
    m ≤ n := by
  by_contra hlt
  obtain ⟨-, hhigh⟩ := abs_le.mp hm.near
  obtain ⟨hlow, -⟩ := abs_le.mp hn.near
  have hnext : (n : ℚ) + 1 ≤ m := by exact_mod_cast not_le.mp hlt
  -- both numbers are in the middle between two even integers that follow each other
  have hsucc : m = n + 1 := by
    have hle : (m : ℚ) ≤ n + 1 := by linarith
    exact le_antisymm (by exact_mod_cast hle) (by exact_mod_cast hnext)
  subst hsucc
  push_cast at hhigh hnext
  have hupper : |((n + 1 : ℤ) : ℚ) - x| = 1 / 2 := by
    rw [abs_of_nonneg (by push_cast; linarith)]
    push_cast
    linarith
  have hlower : |(n : ℚ) - y| = 1 / 2 := by
    rw [abs_of_nonpos (by linarith)]
    linarith
  have hodd := hm.even hupper
  rw [Int.even_add_one] at hodd
  exact hodd (hn.even hlower)

/-- What an accuracy says about the exact number at a mantissa. -/
def Describes (m : ℕ) (x : ℚ) : Accuracy → Prop
  | .exact => x = m
  | .inexact .lt => m < x ∧ x < m + 1 / 2
  | .inexact .eq => x = m + 1 / 2
  | .inexact .gt => m + 1 / 2 < x ∧ x < m + 1

theorem Describes.bounds {m : ℕ} {x : ℚ} {a : Accuracy} (h : Describes m x a) :
    m ≤ x ∧ x < m + 1 := by
  rcases a with _ | (_ | _ | _)
  · obtain rfl : x = m := h
    constructor <;> linarith
  · obtain ⟨hlow, hhigh⟩ : m < x ∧ x < m + 1 / 2 := h
    constructor <;> linarith
  · obtain rfl : x = m + 1 / 2 := h
    constructor <;> linarith
  · obtain ⟨hlow, hhigh⟩ : m + 1 / 2 < x ∧ x < m + 1 := h
    constructor <;> linarith

theorem Describes.nearest {m : ℕ} {x : ℚ} {a : Accuracy} (h : Describes m x a) :
    Nearest x (a.roundToNearestEven m) := by
  rcases a with _ | (_ | _ | _)
  · obtain rfl : x = m := h
    exact nearest_intCast m
  · obtain ⟨hlow, hhigh⟩ : m < x ∧ x < m + 1 / 2 := h
    show Nearest x (m : ℤ)
    apply nearest_of_close
    rw [abs_lt]
    push_cast
    constructor <;> linarith
  · obtain rfl : x = m + 1 / 2 := h
    show Nearest _ ((m + m % 2 : ℕ) : ℤ)
    have heven : Even (m + m % 2) := by
      rw [Nat.even_iff]
      omega
    refine ⟨?_, fun _ => by exact_mod_cast heven⟩
    rcases Nat.mod_two_eq_zero_or_one m with hmod | hmod
    · rw [hmod]
      norm_num
    · rw [hmod]
      norm_num
  · obtain ⟨hlow, hhigh⟩ : m + 1 / 2 < x ∧ x < m + 1 := h
    show Nearest x ((m + 1 : ℕ) : ℤ)
    apply nearest_of_close
    rw [abs_lt]
    push_cast
    constructor <;> linarith

/-- The number that a mantissa with two more bits stands for. -/
def Represents (em : ExtendedMantissa) (x : ℚ) : Prop :=
  Describes em.mantissa x em.accuracy

theorem represents_ofMantissaAndAccuracy {m : ℕ} {x : ℚ} {a : Accuracy} (h : Describes m x a) :
    Represents (ExtendedMantissa.ofMantissaAndAccuracy m a) x := by
  rcases a with _ | (_ | _ | _) <;> exact h

theorem Represents.shiftRightOne {em : ExtendedMantissa} {x : ℚ} (h : Represents em x) :
    Represents em.shiftRightOne (x / 2) := by
  obtain ⟨m, roundBit, stickyBit⟩ := em
  obtain ⟨half, hhalf⟩ : ∃ half, half = m / 2 := ⟨_, rfl⟩
  rcases Nat.mod_two_eq_zero_or_one m with hmod | hmod
  · obtain rfl : m = 2 * half := by omega
    cases roundBit <;> cases stickyBit <;>
      simp [Represents, Describes, ExtendedMantissa.shiftRightOne,
        ExtendedMantissa.accuracy] at h ⊢ <;>
      grind
  · obtain rfl : m = 2 * half + 1 := by omega
    have hdiv : (2 * half + 1) / 2 = half := by omega
    cases roundBit <;> cases stickyBit <;>
      simp [Represents, Describes, ExtendedMantissa.shiftRightOne,
        ExtendedMantissa.accuracy, hdiv] at h ⊢ <;>
      grind

theorem Represents.shiftRight {em : ExtendedMantissa} {x : ℚ} (h : Represents em x) (k : ℕ) :
    Represents (em >>> k) (x / 2 ^ k) := by
  induction k with
  | zero =>
      rw [pow_zero, div_one]
      exact h
  | succ k ih =>
      rw [pow_succ, ← div_div]
      exact ih.shiftRightOne

/-- The accuracy of a quotient comes from its remainder. -/
theorem describes_accuracyOfFraction (n : ℕ) {d : ℕ} (hd : 0 < d) :
    Describes (n / d) (n / d : ℚ) (accuracyOfFraction (n % d) d) := by
  have hpos : (0 : ℚ) < d := by exact_mod_cast hd
  have hsplit : (n : ℚ) / d = (n / d : ℕ) + (n % d : ℕ) / (d : ℚ) := by
    rw [eq_comm, ← mul_right_inj' hpos.ne', mul_add, mul_div_cancel₀ _ hpos.ne',
      mul_div_cancel₀ _ hpos.ne']
    exact_mod_cast Nat.div_add_mod n d
  have hmod : ((n % d : ℕ) : ℚ) < d := by exact_mod_cast Nat.mod_lt n hd
  unfold accuracyOfFraction
  split
  case isTrue hzero =>
    rw [hzero, Nat.cast_zero, zero_div, add_zero] at hsplit
    exact hsplit
  case isFalse hzero =>
    have hfraction : (0 : ℚ) < (n % d : ℕ) / d :=
      div_pos (by exact_mod_cast Nat.pos_of_ne_zero hzero) hpos
    cases hcompare : compare (2 * (n % d)) d with
    | lt =>
        have hlt : (2 * (n % d : ℕ) : ℚ) < d := by exact_mod_cast Nat.compare_eq_lt.mp hcompare
        have hhalf : ((n % d : ℕ) : ℚ) / d < 1 / 2 := by
          rw [div_lt_iff₀ hpos]
          linarith
        constructor <;> linarith
    | eq =>
        have heq : (2 * (n % d : ℕ) : ℚ) = d := by exact_mod_cast Nat.compare_eq_eq.mp hcompare
        have hhalf : ((n % d : ℕ) : ℚ) / d = 1 / 2 := by
          rw [div_eq_iff hpos.ne']
          linarith
        show (n : ℚ) / d = _
        linarith
    | gt =>
        have hgt : (d : ℚ) < 2 * (n % d : ℕ) := by exact_mod_cast Nat.compare_eq_gt.mp hcompare
        have hhalf : 1 / 2 < ((n % d : ℕ) : ℚ) / d := by
          rw [lt_div_iff₀ hpos]
          linarith
        have hone : ((n % d : ℕ) : ℚ) / d < 1 := (div_lt_one hpos).mpr hmod
        constructor <;> linarith

end GrowthCurve.Binary
