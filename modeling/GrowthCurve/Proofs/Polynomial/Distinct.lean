import Mathlib
import GrowthCurve.Polynomial.LeastSquares
import GrowthCurve.Proofs.Binary.Key
import GrowthCurve.Proofs.Exact

/-!
# Distinct abscissae

Numbers are counted by a key in a linear order: sorted numbers have sorted keys,
and equal numbers the same key. Equal numbers then stand side by side, so that
dropping repeats keeps each value once. Exact numbers are their own keys. The key
of a double is its place in the order, which the two zeros share.
-/

namespace GrowthCurve.Polynomial

/-! ## Counting by a key -/

section Keys

variable {α β : Type} [Scalar α] [LinearOrder β] {key : α → β} {xs ys : List α} {kept : α}

/-- A key that tells the same numbers apart as the scalars do, and is sorted as they are. -/
structure Keyed (key : α → β) (xs : List α) : Prop where
  same_iff : ∀ x ∈ xs, ∀ y ∈ xs, Scalar.same x y = true ↔ key x = key y
  mono : ∀ x ∈ xs, ∀ y ∈ xs, Scalar.precedes x y = true → key x ≤ key y
  trans : ∀ a b c : α, Scalar.precedes a b → Scalar.precedes b c → Scalar.precedes a c
  total : ∀ a b : α, Scalar.precedes a b || Scalar.precedes b a

theorem Keyed.perm (h : Keyed key xs) (hperm : ys.Perm xs) : Keyed key ys :=
  { h with
    same_iff := fun x hx y hy => h.same_iff x (hperm.subset hx) y (hperm.subset hy)
    mono := fun x hx y hy => h.mono x (hperm.subset hx) y (hperm.subset hy) }

/-- Dropping repeats drops the repeats among the keys. -/
theorem map_dropRepeatsOf
    (h : ∀ x ∈ kept :: xs, ∀ y ∈ kept :: xs, Scalar.same x y = true ↔ key x = key y) :
    (kept :: dropRepeatsOf kept xs).map key =
      (xs.map key).destutter' (· ≠ ·) (key kept) := by
  induction xs generalizing kept with
  | nil => rfl
  | cons y rest ih =>
      have hsame := h kept List.mem_cons_self y (List.mem_cons_of_mem _ List.mem_cons_self)
      show (kept :: dropRepeatsOf kept (y :: rest)).map key =
        (key y :: rest.map key).destutter' (· ≠ ·) (key kept)
      rw [List.destutter'_cons]
      by_cases hkey : key kept = key y
      · -- `y` is dropped, and `kept` is still the last one
        have hsubset : kept :: rest ⊆ kept :: y :: rest :=
          List.cons_subset_cons kept (List.subset_cons_self y rest)
        have hrest := @ih kept fun x hx y hy => h x (hsubset hx) y (hsubset hy)
        rw [if_neg (not_not.mpr hkey), ← hrest, dropRepeatsOf, if_pos (hsame.mpr hkey)]
      · have hrest := @ih y fun x hx y hy =>
          h x (List.mem_cons_of_mem _ hx) y (List.mem_cons_of_mem _ hy)
        rw [if_pos hkey, ← hrest, dropRepeatsOf, if_neg (mt hsame.mp hkey)]
        rfl

theorem map_dropRepeats (h : Keyed key xs) :
    (dropRepeats xs).map key = (xs.map key).destutter (· ≠ ·) := by
  cases xs with
  | nil => rfl
  | cons x rest => exact map_dropRepeatsOf h.same_iff

/-- The numbers are as many as their keys. -/
theorem distinctCount_eq_card_map (h : Keyed key xs) :
    distinctCount xs = (xs.map key).toFinset.card := by
  have hperm := List.mergeSort_perm xs Scalar.precedes
  have hkeyed := h.perm hperm
  have hsorted : ((xs.mergeSort Scalar.precedes).map key).Pairwise (· ≤ ·) := by
    rw [List.pairwise_map]
    refine (List.pairwise_mergeSort h.trans h.total xs).imp_of_mem ?_
    exact fun hx hy => hkeyed.mono _ hx _ hy
  calc distinctCount xs
      = ((dropRepeats (xs.mergeSort Scalar.precedes)).map key).length :=
        (List.length_map _).symm
    _ = ((xs.mergeSort Scalar.precedes).map key).dedup.length := by
        rw [map_dropRepeats hkeyed, hsorted.destutter_eq_dedup]
    _ = (xs.map key).toFinset.card := by
        rw [← List.card_toFinset, List.toFinset_eq_of_perm _ _ (hperm.map key)]

end Keys

/-! ## Exact numbers -/

section Exact

open scoped Exact

variable {K : Type} [Field K] [LinearOrder K]

theorem keyed_id (xs : List K) : Keyed id xs where
  same_iff x _ y _ := decide_eq_true_iff
  mono x _ y _ := of_decide_eq_true
  trans a b c hab hbc := decide_eq_true (le_trans (of_decide_eq_true hab) (of_decide_eq_true hbc))
  total a b := by
    simp only [Exact.precedes_eq, Bool.or_eq_true, decide_eq_true_eq]
    exact le_total a b

theorem distinctCount_eq_card (xs : List K) : distinctCount xs = xs.toFinset.card := by
  rw [distinctCount_eq_card_map (keyed_id xs), List.map_id]

end Exact

/-! ## Doubles -/

open Binary in
/-- Without NaN doubles are sorted and told apart by their places. -/
theorem keyed_place {xs : List Float} (h : ∀ x ∈ xs, x.isNaN = false) : Keyed place xs where
  same_iff x hx y hy := by
    show (x == y) = true ↔ _
    rw [beq_iff, h x hx, h y hy]
    simp
  mono x hx y hy hle :=
    (le_iff.mp (le_of_orderKey_le (h x hx) (h y hy) (of_decide_eq_true hle))).2.2
  trans a b c hab hbc :=
    decide_eq_true (UInt64.le_trans (of_decide_eq_true hab) (of_decide_eq_true hbc))
  total a b := by
    rcases UInt64.le_total (orderKey a) (orderKey b) with hab | hba
    · exact Bool.or_eq_true_iff.mpr (.inl (decide_eq_true hab))
    · exact Bool.or_eq_true_iff.mpr (.inr (decide_eq_true hba))

/-- Dropping everything that equals an earlier element leaves one number for each key. -/
theorem length_eraseDups {α β : Type} [BEq α] [DecidableEq β] {key : α → β} {xs : List α}
    (h : ∀ x ∈ xs, ∀ y ∈ xs, (x == y) = true ↔ key x = key y) :
    xs.eraseDups.length = (xs.map key).toFinset.card := by
  induction hn : xs.length using Nat.strong_induction_on generalizing xs with
  | _ n ih =>
    cases xs with
    | nil => rfl
    | cons a rest =>
        have hfresh : ∀ b ∈ rest, (!b == a) = true ↔ key b ≠ key a := by
          intro b hb
          rw [Bool.not_eq_true', ← Bool.not_eq_true, not_iff_not]
          exact h b (List.mem_cons_of_mem _ hb) a List.mem_cons_self
        have hother := @ih _ (by grind) (rest.filter fun b => !b == a)
          (fun x hx y hy => h x (by grind) y (by grind)) rfl
        have hkeys : ((rest.filter fun b => !b == a).map key).toFinset =
            (rest.map key).toFinset.erase (key a) := by
          ext k
          simp only [List.mem_toFinset, List.mem_map, List.mem_filter, Finset.mem_erase]
          grind
        rw [List.eraseDups_cons, List.length_cons, hother, hkeys, List.map_cons,
          List.toFinset_cons, ← Finset.erase_insert_eq_erase,
          Finset.card_erase_add_one (Finset.mem_insert_self _ _)]

/-- The count of distinct abscissae leaves out every number that equals an earlier one. -/
theorem distinctCount_eq_length_eraseDups {xs : List Float} (h : ∀ x ∈ xs, x.isNaN = false) :
    distinctCount xs = xs.eraseDups.length := by
  rw [distinctCount_eq_card_map (keyed_place h), length_eraseDups (keyed_place h).same_iff]

end GrowthCurve.Polynomial
