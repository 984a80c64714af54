import Mathlib
import GrowthCurve.Proofs.Polynomial.LeastSquares

/-!
# Normal equations

A list of rows is a matrix, and a list of coefficients a vector. If the columns
of the matrix are independent, the normal equations have a solution, and any
other choice of coefficients adds a square to its error. So there is one choice
that comes closest to a target, and only one.
-/

namespace GrowthCurve.Polynomial

open Matrix

/-! ## Rows and coefficients -/

section Rows

variable {K : Type} [Field K] {n : ℕ}

/-- The matrix with these rows. -/
def matrixOf (rows : List (List K)) (columns : ℕ) : Matrix (Fin rows.length) (Fin columns) K :=
  .of fun i j => rows[i].getD j 0

/-- The vector of the first entries of a list. -/
def vectorOf (n : ℕ) (c : List K) : Fin n → K :=
  fun i => c.getD i 0

theorem vectorOf_ofFn (v : Fin n → K) : vectorOf n (List.ofFn v) = v := by
  funext i
  simp [vectorOf]

theorem ofFn_vectorOf {c : List K} (hc : c.length = n) : List.ofFn (vectorOf n c) = c := by
  subst hc
  refine List.ext_getElem (List.length_ofFn) fun i hi _ => ?_
  rw [List.length_ofFn] at hi
  rw [List.getElem_ofFn]
  exact List.getD_eq_getElem c 0 hi

theorem sum_zipWith (f : K → K → K) {as bs : List K} (ha : as.length = n) (hb : bs.length = n) :
    (List.zipWith f as bs).sum = ∑ i, f (vectorOf n as i) (vectorOf n bs i) := by
  induction as generalizing n bs with
  | nil =>
      subst ha
      simp
  | cons a as ih =>
      cases bs with
      | nil =>
          subst hb
          simp at ha
      | cons b bs =>
          subst ha
          have hlength : bs.length = as.length := Nat.succ_inj.mp hb
          have hrest := ih rfl hlength
          show _ = ∑ i : Fin (as.length + 1), f (vectorOf _ (a :: as) i) (vectorOf _ (b :: bs) i)
          rw [List.zipWith_cons_cons, List.sum_cons, hrest, Fin.sum_univ_succ]
          rfl

variable {rows : List (List K)} {columns : ℕ} {c target : List K}

theorem mulVec_matrixOf (hrows : ∀ row ∈ rows, row.length = columns) (hc : c.length = columns)
    (i : Fin rows.length) :
    (matrixOf rows columns *ᵥ vectorOf columns c) i = rowValue rows[i] c :=
  (sum_zipWith (· * ·) (hrows _ (List.getElem_mem i.isLt)) hc).symm

/-- The error of some coefficients is the square of the vector of their errors. -/
theorem squaredError_rows (hrows : ∀ row ∈ rows, row.length = columns)
    (hc : c.length = columns) (htarget : target.length = rows.length) :
    squaredError target (rows.map fun row => rowValue row c) =
      (vectorOf rows.length target - matrixOf rows columns *ᵥ vectorOf columns c) ⬝ᵥ
        (vectorOf rows.length target - matrixOf rows columns *ᵥ vectorOf columns c) := by
  unfold squaredError
  rw [sum_zipWith _ htarget (List.length_map _)]
  apply Finset.sum_congr rfl
  intro i _
  have hvalue : vectorOf rows.length (rows.map fun row => rowValue row c) i =
      rowValue rows[i] c := by
    simp [vectorOf]
  rw [hvalue, Pi.sub_apply, mulVec_matrixOf hrows hc, sq]

end Rows

/-! ## The closest coefficients -/

variable {K : Type} [Field K] [LinearOrder K]

/-- No other coefficients bring the rows closer to the target. -/
structure Minimises (rows : List (List K)) (columns : ℕ) (target c : List K) : Prop where
  length_eq : c.length = columns
  minimal : ∀ c' : List K, c'.length = columns →
    squaredError target (rows.map fun row => rowValue row c) ≤
      squaredError target (rows.map fun row => rowValue row c')

variable [IsStrictOrderedRing K]

section Normal

variable {m n : ℕ} {A : Matrix (Fin m) (Fin n) K} {y : Fin m → K} {v : Fin n → K}

theorem dotProduct_self_nonneg (w : Fin m → K) : 0 ≤ w ⬝ᵥ w :=
  Finset.sum_nonneg fun i _ => mul_self_nonneg (w i)

/-- Independent columns make the square matrix of the normal equations invertible. -/
theorem exists_normal (hindependent : LinearIndependent K A.col) (y : Fin m → K) :
    ∃ v, Aᵀ *ᵥ (y - A *ᵥ v) = 0 := by
  have hinjective : Function.Injective (Aᵀ * A).mulVec := by
    have htrivial : LinearMap.ker A.mulVecLin = ⊥ :=
      LinearMap.ker_eq_bot.mpr (mulVec_injective_iff.mpr hindependent)
    rw [← ker_mulVecLin_transpose_mul_self] at htrivial
    exact LinearMap.ker_eq_bot.mp htrivial
  obtain ⟨v, hv⟩ := mulVec_surjective_iff_isUnit.mpr (mulVec_injective_iff_isUnit.mp hinjective)
    (Aᵀ *ᵥ y)
  refine ⟨v, ?_⟩
  rw [mulVec_sub, mulVec_mulVec, ← hv, sub_self]

omit [LinearOrder K] [IsStrictOrderedRing K] in
/-- Away from a solution of the normal equations the error grows by a square. -/
theorem error_of_normal (h : Aᵀ *ᵥ (y - A *ᵥ v) = 0) (w : Fin n → K) :
    (y - A *ᵥ w) ⬝ᵥ (y - A *ᵥ w) =
      (y - A *ᵥ v) ⬝ᵥ (y - A *ᵥ v) + (A *ᵥ (v - w)) ⬝ᵥ (A *ᵥ (v - w)) := by
  have hsplit : y - A *ᵥ w = (y - A *ᵥ v) + A *ᵥ (v - w) := by
    rw [mulVec_sub, sub_add_sub_cancel]
  have horthogonal : (y - A *ᵥ v) ⬝ᵥ A *ᵥ (v - w) = 0 := by
    rw [dotProduct_mulVec, ← mulVec_transpose, h, zero_dotProduct]
  rw [hsplit, add_dotProduct, dotProduct_add, dotProduct_add, horthogonal,
    dotProduct_comm (A *ᵥ (v - w)) (y - A *ᵥ v), horthogonal, add_zero, zero_add]

end Normal

/-- A matrix with independent columns has one choice of coefficients that comes
closest to a target. -/
theorem existsUnique_minimiser {rows : List (List K)} {columns : ℕ} {target : List K}
    (hrows : ∀ row ∈ rows, row.length = columns) (htarget : target.length = rows.length)
    (hindependent : LinearIndependent K (matrixOf rows columns).col) :
    ∃! c, Minimises rows columns target c := by
  obtain ⟨v, hv⟩ := exists_normal hindependent (vectorOf rows.length target)
  have hlength : (List.ofFn v).length = columns := List.length_ofFn
  have herror : ∀ c : List K, c.length = columns →
      squaredError target (rows.map fun row => rowValue row c) =
        squaredError target (rows.map fun row => rowValue row (List.ofFn v)) +
          (matrixOf rows columns *ᵥ (v - vectorOf columns c)) ⬝ᵥ
            (matrixOf rows columns *ᵥ (v - vectorOf columns c)) := by
    intro c hc
    rw [squaredError_rows hrows hc htarget, squaredError_rows hrows hlength htarget,
      error_of_normal hv, vectorOf_ofFn]
  refine ⟨List.ofFn v, ⟨hlength, fun c hc => ?_⟩, fun c hc => ?_⟩
  · rw [herror c hc]
    exact le_add_of_nonneg_right (dotProduct_self_nonneg _)
  · have hleast := hc.minimal _ hlength
    rw [herror c hc.length_eq] at hleast
    have hzero := le_antisymm (by linarith) (dotProduct_self_nonneg
      (matrixOf rows columns *ᵥ (v - vectorOf columns c)))
    rw [dotProduct_self_eq_zero, mulVec_sub, sub_eq_zero] at hzero
    have hsame : v = vectorOf columns c := mulVec_injective_iff.mpr hindependent hzero
    rw [hsame, ofFn_vectorOf hc.length_eq]

end GrowthCurve.Polynomial
