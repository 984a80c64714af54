import Mathlib
import GrowthCurve.Polynomial.Rotations

/-!
# Coefficients found by rotations

However columns are turned, each keeps one weight for every column of the
matrix. So there is one coefficient for every column.
-/

namespace GrowthCurve.Polynomial.Rotations

variable {n : ℕ} {p q : Column} {columns : List Column}

theorem length_combine (c s : Float) {a b : List Float} (ha : a.length = n) (hb : b.length = n) :
    (combine c s a b).length = n := by
  unfold combine
  rw [List.length_zipWith, ha, hb, min_self]

/-- One weight for every column of the matrix. -/
def Weighted (n : ℕ) (c : Column) : Prop :=
  c.weights.length = n

theorem weighted_turn (hp : Weighted n p) (hq : Weighted n q) :
    Weighted n (turn p q).1 ∧ Weighted n (turn p q).2.1 := by
  unfold turn
  dsimp only
  split
  · exact ⟨length_combine _ _ hp hq, length_combine _ _ hp hq⟩
  · exact ⟨hp, hq⟩

theorem weighted_turnAgainst (hp : Weighted n p) (h : ∀ q ∈ columns, Weighted n q) :
    Weighted n (turnAgainst p columns).1 ∧ ∀ q ∈ (turnAgainst p columns).2.1, Weighted n q := by
  induction columns generalizing p with
  | nil => exact ⟨hp, h⟩
  | cons q rest ih =>
      obtain ⟨hq, hrest⟩ := List.forall_mem_cons.mp h
      obtain ⟨hp', hq'⟩ := weighted_turn hp hq
      obtain ⟨hp'', hrest'⟩ := ih hp' hrest
      exact ⟨hp'', List.forall_mem_cons.mpr ⟨hq', hrest'⟩⟩

theorem weighted_sweep {k : ℕ} (h : ∀ c ∈ columns, Weighted n c) :
    ∀ c ∈ (sweep k columns).1, Weighted n c := by
  induction k generalizing columns with
  | zero => exact h
  | succ k ih =>
      cases columns with
      | nil => exact h
      | cons p rest =>
          obtain ⟨hp, hrest⟩ := List.forall_mem_cons.mp h
          obtain ⟨hp', hrest'⟩ := weighted_turnAgainst hp hrest
          exact List.forall_mem_cons.mpr ⟨hp', ih hrest'⟩

theorem weighted_orthogonalise {fuel : ℕ} (h : ∀ c ∈ columns, Weighted n c) :
    ∀ c ∈ orthogonalise fuel columns, Weighted n c := by
  induction fuel generalizing columns with
  | zero => exact h
  | succ fuel ih =>
      have hswept := weighted_sweep (k := columns.length) h
      unfold orthogonalise
      split
      case h_1 hmoved =>
        rw [hmoved] at hswept
        exact ih hswept
      case h_2 hstill =>
        rw [hstill] at hswept
        exact hswept

theorem weighted_columnsOf (rows : List (List Float)) (n : ℕ) :
    ∀ c ∈ columnsOf rows n, Weighted n c := by
  unfold columnsOf Weighted
  simp

theorem length_foldl_add {vs : List (List Float)} {total : List Float} (htotal : total.length = n)
    (h : ∀ v ∈ vs, v.length = n) : (vs.foldl (List.zipWith (· + ·)) total).length = n := by
  induction vs generalizing total with
  | nil => exact htotal
  | cons v vs ih =>
      obtain ⟨hv, hvs⟩ := List.forall_mem_cons.mp h
      apply ih _ hvs
      rw [List.length_zipWith, htotal, hv, min_self]

/-- There is one coefficient for every column. -/
theorem length_coefficients (rows : List (List Float)) (n : ℕ) (target : List Float) :
    ((decompose rows n).coefficients target).length = n := by
  apply length_foldl_add List.length_replicate
  rw [List.forall_mem_map]
  intro c hc
  have hweights := weighted_orthogonalise (weighted_columnsOf rows n) c hc
  unfold contribution scaleBy
  rw [List.length_map]
  exact hweights

end GrowthCurve.Polynomial.Rotations
