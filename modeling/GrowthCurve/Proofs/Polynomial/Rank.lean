import Mathlib
import GrowthCurve.Proofs.Polynomial.Interpolation
import GrowthCurve.Proofs.Polynomial.Normal
import GrowthCurve.Proofs.Polynomial.Scaling

/-!
# The rank of the design matrix

Coefficients that the design matrix sends to zero are those of a polynomial that
vanishes at every abscissa. With as many distinct abscissae as columns only zero
does; with fewer the polynomial that has all of them as roots is another one. So
the count of distinct abscissae decides whether the columns are independent, and
a rank that is computed without an error has nothing left to refuse.
-/

section

open Polynomial Matrix

namespace GrowthCurve.Polynomial

open scoped Exact

/-! ## Matrices of full rank -/

theorem rank_eq_iff_linearIndependent {K : Type} [Field K] {m n : ℕ}
    {A : Matrix (Fin m) (Fin n) K} : A.rank = n ↔ LinearIndependent K A.col := by
  rw [linearIndependent_iff_card_eq_finrank_span, Fintype.card_fin, A.rank_eq_finrank_span_cols,
    Set.finrank, eq_comm]

variable {K : Type} [Field K] [LinearOrder K]

/-! ## The columns of the design matrix -/

section Design

variable {ts : List K} {n : ℕ}

theorem length_of_mem_design {row : List K} (h : row ∈ design ts n) : row.length = n := by
  obtain ⟨t, -, rfl⟩ := List.mem_map.mp h
  rw [List.length_map, List.length_range]

theorem length_design (ts : List K) (n : ℕ) : (design ts n).length = ts.length :=
  List.length_map _

theorem matrixOf_design (i : Fin (design ts n).length) (j : Fin n) :
    matrixOf (design ts n) n i j = ts.getD i 0 ^ (j : ℕ) := by
  have hi : (i : ℕ) < ts.length := length_design ts n ▸ i.isLt
  show (design ts n)[(i : ℕ)].getD j 0 = _
  simp [design, hi]

/-- The design matrix sends the coefficients of a polynomial to its values. -/
theorem mulVec_design_eq_zero_iff {c : List K} (hc : c.length = n) :
    matrixOf (design ts n) n *ᵥ vectorOf n c = 0 ↔ ∀ t ∈ ts, (toPoly c).eval t = 0 := by
  have hrow : ∀ i, (matrixOf (design ts n) n *ᵥ vectorOf n c) i = rowValue (design ts n)[i] c :=
    mulVec_matrixOf (fun _ => length_of_mem_design) hc
  have hvalue : ∀ t, rowValue ((List.range n).map (Scalar.power t)) c = (toPoly c).eval t := by
    intro t
    rw [← hc, rowValue_powers, evaluate_reverse]
  calc matrixOf (design ts n) n *ᵥ vectorOf n c = 0
      ↔ ∀ i : Fin (design ts n).length, rowValue (design ts n)[i] c = 0 := by
        rw [funext_iff]
        exact forall_congr' fun i => by rw [hrow]; rfl
    _ ↔ ∀ row ∈ design ts n, rowValue row c = 0 := by
        rw [List.forall_mem_iff_getElem]
        exact ⟨fun h i hi => h ⟨i, hi⟩, fun h i => h i i.isLt⟩
    _ ↔ ∀ t ∈ ts, (toPoly c).eval t = 0 := by
        unfold design
        rw [List.forall_mem_map]
        exact forall₂_congr fun t _ => by rw [hvalue]

/-- No other polynomial of this degree vanishes at enough distinct abscissae. -/
theorem eq_zero_of_mulVec_design (h : n ≤ ts.toFinset.card) {v : Fin n → K}
    (hv : matrixOf (design ts n) n *ᵥ v = 0) : v = 0 := by
  have hlength : (List.ofFn v).length = n := List.length_ofFn
  rw [← vectorOf_ofFn v, mulVec_design_eq_zero_iff hlength] at hv
  have hdegree : (toPoly (List.ofFn v)).degree < ts.toFinset.card := by
    refine (degree_toPoly_lt _).trans_le ?_
    rw [hlength]
    exact_mod_cast h
  have hzero : toPoly (List.ofFn v) = 0 :=
    eq_zero_of_degree_lt_of_eval_finset_eq_zero ts.toFinset hdegree
      fun t ht => hv t (List.mem_toFinset.mp ht)
  funext i
  rw [← vectorOf_ofFn v, vectorOf, ← coeff_toPoly, hzero, coeff_zero]
  rfl

/-- With fewer distinct abscissae the polynomial that has them as roots does. -/
theorem exists_mulVec_design_eq_zero (h : ts.toFinset.card < n) :
    ∃ v, matrixOf (design ts n) n *ᵥ v = 0 ∧ v ≠ 0 := by
  let P : K[X] := ∏ t ∈ ts.toFinset, (X - C t)
  have hmonic : P.Monic := monic_prod_X_sub_C _ _
  have hnatDegree : P.natDegree = ts.toFinset.card :=
    natDegree_finsetProd_X_sub_C_eq_card ts.toFinset id
  have hdegree : P.degree < n := by
    rw [degree_eq_natDegree hmonic.ne_zero, hnatDegree]
    exact_mod_cast h
  have hlength : (coefficients P n).reverse.length = n := by
    rw [List.length_reverse, length_coefficients]
  have hroot : ∀ t ∈ ts, (toPoly (coefficients P n).reverse).eval t = 0 := by
    intro t ht
    rw [toPoly_reverse_coefficients hdegree, eval_prod]
    exact Finset.prod_eq_zero (List.mem_toFinset.mpr ht) (by simp)
  refine ⟨_, (mulVec_design_eq_zero_iff hlength).mpr hroot, fun hzero => ?_⟩
  have hlead := congrFun hzero ⟨ts.toFinset.card, h⟩
  rw [vectorOf, ← coeff_toPoly, toPoly_reverse_coefficients hdegree] at hlead
  exact one_ne_zero ((hnatDegree ▸ hmonic.coeff_natDegree).symm.trans hlead)

theorem linearIndependent_design_iff :
    LinearIndependent K (matrixOf (design ts n) n).col ↔ n ≤ ts.toFinset.card := by
  rw [← mulVec_injective_iff]
  constructor
  · intro hinjective
    by_contra! hfew
    obtain ⟨v, hv, hne⟩ := exists_mulVec_design_eq_zero hfew
    exact hne (hinjective (hv.trans (mulVec_zero _).symm))
  · intro henough
    exact LinearMap.ker_eq_bot.mp
      (ker_mulVecLin_eq_bot_iff.mpr fun v => eq_zero_of_mulVec_design henough)

end Design

/-! ## The guard -/

/-- A decomposition whose ranks are those of the matrices. -/
def RankExact (decompose : List (List K) → ℕ → Decomposition K) : Prop :=
  ∀ rows columns, (decompose rows columns).rank = (matrixOf rows columns).rank

variable [IsStrictOrderedRing K] {xs ys : List K} {d : ℕ}

theorem linearIndependent_parameters_iff (xs : List K) (n : ℕ) :
    LinearIndependent K (matrixOf (design (parameters xs) n) n).col ↔ n ≤ xs.toFinset.card := by
  rw [linearIndependent_design_iff, card_parameters]

theorem existsUnique_coefficients (h : d + 1 ≤ xs.toFinset.card) (hlength : ys.length = xs.length) :
    ∃! c, Minimises (design (parameters xs) (d + 1)) (d + 1) ys c := by
  refine existsUnique_minimiser (fun _ => length_of_mem_design) ?_
    ((linearIndependent_parameters_iff xs (d + 1)).mpr h)
  rw [length_design, length_parameters, hlength]

/-- Exact ranks are never too low once there are enough distinct abscissae. -/
theorem leastSquares_of_rankExact {decompose : List (List K) → ℕ → Decomposition K}
    (hexact : RankExact decompose) (h : d + 1 ≤ distinctCount xs) :
    leastSquares (.ofDecomposition decompose) xs ys d =
      .ok ⟨(decompose (design (parameters xs) (d + 1)) (d + 1)).coefficients ys, centre xs,
        spread (centre xs) xs⟩ := by
  have hrank : (decompose (design (parameters xs) (d + 1)) (d + 1)).rank = d + 1 := by
    rw [hexact, rank_eq_iff_linearIndependent, linearIndependent_parameters_iff,
      ← distinctCount_eq_card]
    exact h
  rw [leastSquares_of_enough h rfl]
  exact if_neg hrank.not_lt

/-- **Full rank is enough distinct abscissae**: the scale is positive, the scaled
abscissae fill `[-1, 1]`, and the columns of their powers are independent if and only
if there are enough distinct abscissae, and then there is just one minimiser. So the
count of these is the only guard that a solver with exact ranks needs. -/
theorem full_rank_iff_distinct (xs : List K) (d : ℕ) :
    0 < spread (centre xs) xs ∧
      (∀ t ∈ parameters xs, |t| ≤ 1) ∧
      ((∃ t ∈ parameters xs, |t| = 1) ↔ ∃ x ∈ xs, ∃ y ∈ xs, x ≠ y) ∧
      (∀ i j, matrixOf (design (parameters xs) (d + 1)) (d + 1) i j =
        (parameters xs).getD i 0 ^ (j : ℕ)) ∧
      (LinearIndependent K (matrixOf (design (parameters xs) (d + 1)) (d + 1)).col ↔
        d + 1 ≤ xs.toFinset.card) ∧
      (d + 1 ≤ distinctCount xs →
        (matrixOf (design (parameters xs) (d + 1)) (d + 1)).rank = d + 1 ∧
          ∀ ys : List K, ys.length = xs.length →
            ∃! c, Minimises (design (parameters xs) (d + 1)) (d + 1) ys c) ∧
      ∀ decompose : List (List K) → ℕ → Decomposition K, RankExact decompose → ∀ ys : List K,
        leastSquares (.ofDecomposition decompose) xs ys d =
          if distinctCount xs < d + 1 then .error (.insufficientData (d + 1) (distinctCount xs))
          else .ok ⟨(decompose (design (parameters xs) (d + 1)) (d + 1)).coefficients ys,
            centre xs, spread (centre xs) xs⟩ := by
  have hindependent := linearIndependent_parameters_iff xs (d + 1)
  refine ⟨spread_pos _ xs, fun _ => abs_le_one_of_mem_parameters, exists_parameter_at_end_iff,
    matrixOf_design, hindependent, fun henough => ?_, fun decompose hexact ys => ?_⟩
  · rw [distinctCount_eq_card] at henough
    exact ⟨rank_eq_iff_linearIndependent.mpr (hindependent.mpr henough),
      fun ys hlength => existsUnique_coefficients henough hlength⟩
  · split_ifs with hfew
    · exact leastSquares_of_few _ hfew
    · exact leastSquares_of_rankExact hexact (not_lt.mp hfew)

/-- The line through three points, from a decomposition that knows its matrix. -/
theorem full_rank_three_points :
    (matrixOf (design (parameters [0, 1, (2 : ℚ)]) 2) 2).rank = 2 ∧
      leastSquares (.ofDecomposition fun rows columns =>
          ⟨(matrixOf rows columns).rank, fun _ => [2, 1 / 2]⟩) [0, 1, (2 : ℚ)] [1, 3, 2] 1 =
        .ok ⟨[2, 1 / 2], 1, 1⟩ := by
  have hcount : distinctCount [0, 1, (2 : ℚ)] = 3 := by
    rw [distinctCount_eq_card]
    decide
  have hcentre : centre [0, 1, (2 : ℚ)] = 1 := by norm_num [centre]
  have hspread : spread 1 [0, 1, (2 : ℚ)] = 1 := by norm_num [spread]
  obtain ⟨-, -, -, -, -, henough, hguard⟩ := full_rank_iff_distinct [0, 1, (2 : ℚ)] 1
  refine ⟨(henough (by rw [hcount]; decide)).1, ?_⟩
  rw [hguard _ (fun _ _ => rfl), hcount, hcentre, hspread]
  rfl

end GrowthCurve.Polynomial

end
