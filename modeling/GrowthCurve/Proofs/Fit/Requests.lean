import Mathlib
import GrowthCurve.Analysis
import GrowthCurve.Proofs.Analysis.Panels
import GrowthCurve.Proofs.Fit.Computed
import GrowthCurve.Proofs.Polynomial.LeastSquares
import GrowthCurve.Proofs.Polynomial.Rotations

/-!
# Requests for fits

A request for a fit is checked in a fixed order: its degree, the lengths of its
columns, the number of samples and the number of distinct abscissae. Nothing of
this looks at a target value. A request that passes is answered after the matrix
was taken apart: its rank is too low, or the target is constant and missed, or
there is a fit of the requested degree.
-/

namespace GrowthCurve.Fit

open GrowthCurve.Polynomial (Decomposition Solver distinctCount)

/-- Why a request is refused, whatever its target values are. A reason counts
only if those before it do not apply. -/
inductive Refused (xs : List Float) (targets : ℕ) (degree : ℤ) : FitError Float → Prop where
  | negative (h : degree < 0) : Refused xs targets degree (.invalidDegree degree)
  | unpaired (hdegree : 0 ≤ degree) (h : xs.length ≠ targets) :
      Refused xs targets degree (.lengthMismatch xs.length targets)
  | fewSamples (hdegree : 0 ≤ degree) (hpaired : xs.length = targets)
      (h : xs.length < degree.toNat + 1) :
      Refused xs targets degree (.insufficientData (degree.toNat + 1) xs.length)
  | fewDistinct (hdegree : 0 ≤ degree) (hpaired : xs.length = targets)
      (hsamples : degree.toNat + 1 ≤ xs.length) (h : xs.eraseDups.length < degree.toNat + 1) :
      Refused xs targets degree (.insufficientData (degree.toNat + 1) xs.eraseDups.length)

/-! ## Scores of requests -/

section Scores

variable {α : Type} [Scalar α]

/-- Predictions for some targets are scored, or miss a constant. -/
theorem rSquared_cases {actual predicted : List α} (hlength : actual.length = predicted.length)
    (hsome : actual ≠ []) :
    (∃ score, GrowthCurve.rSquared actual predicted = .ok score) ∨
      ∃ target residual,
        GrowthCurve.rSquared actual predicted = .error (.degenerate target residual) := by
  cases actual with
  | nil => exact absurd rfl hsome
  | cons first rest =>
      unfold GrowthCurve.rSquared
      rw [if_neg (not_not.mpr hlength)]
      dsimp only
      split
      · unfold Score.ofConstant
        dsimp only
        split
        · exact .inl ⟨_, rfl⟩
        · exact .inr ⟨_, _, rfl⟩
      · exact .inl ⟨_, rfl⟩

end Scores

/-! ## One request -/

/-- The matrix of a request: the powers of the scaled abscissae. -/
def matrix (xs : List Float) (n : ℕ) : List (List Float) :=
  Polynomial.design
    (xs.map fun x => (x - Polynomial.centre xs) / Polynomial.spread (Polynomial.centre xs) xs)
    (n + 1)

/-- Where the rank suffices there is one coefficient for every column. -/
def Sized (decompose : List (List Float) → ℕ → Decomposition Float) : Prop :=
  ∀ rows columns target, columns ≤ (decompose rows columns).rank →
    ((decompose rows columns).coefficients target).length = columns

/-- What a fit of a degree consists of. -/
structure Shaped (xs : List Float) (n : ℕ) (f : Fit Float) : Prop where
  degree : f.degree = n
  coefficients : f.coefficients.length = n + 1
  samples : f.predicted.length = xs.length
  predicted : f.predicted = xs.map f.evaluate

/-- How a request that is not refused is answered, by the rank of its matrix. -/
inductive Answered (xs : List Float) (n rank : ℕ) :
    Except (FitError Float) (Fit Float) → Prop where
  | lowRank (h : rank < n + 1) : Answered xs n rank (.error (.insufficientData (n + 1) rank))
  | missed (h : n + 1 ≤ rank) (target residual : Float) :
      Answered xs n rank (.error (.degenerate target residual))
  | fitted {f : Fit Float} (h : n + 1 ≤ rank) (hf : Shaped xs n f) : Answered xs n rank (.ok f)

section Request

variable {decompose : List (List Float) → ℕ → Decomposition Float} {xs ys : List Float}
  {degree : ℤ} {n : ℕ}

theorem computeWith_of_refused (hxs : ∀ x ∈ xs, x.isNaN = false) (solve : Solver Float)
    {e : FitError Float} (h : Refused xs ys.length degree e) :
    computeWith solve xs ys degree = .error e := by
  unfold computeWith
  cases h with
  | negative h => exact if_pos h
  | unpaired hdegree h => rw [if_neg (not_lt.mpr hdegree), if_pos h]
  | fewSamples hdegree hpaired h =>
      rw [if_neg (not_lt.mpr hdegree), if_neg (not_not.mpr hpaired), if_pos h]
  | fewDistinct hdegree hpaired hsamples h =>
      rw [← Polynomial.distinctCount_eq_length_eraseDups hxs] at h ⊢
      rw [if_neg (not_lt.mpr hdegree), if_neg (not_not.mpr hpaired),
        if_neg (not_lt.mpr hsamples), Polynomial.leastSquares_of_few solve h]
      rfl

/-- A request that is not refused has a degree and enough distinct abscissae. -/
theorem enough_of_not_refused (h : ∀ e, ¬ Refused xs ys.length degree e) :
    0 ≤ degree ∧ xs.length = ys.length ∧ degree.toNat + 1 ≤ xs.length ∧
      degree.toNat + 1 ≤ xs.eraseDups.length := by
  have hdegree : 0 ≤ degree := not_lt.mp fun hlt => h _ (.negative hlt)
  have hpaired : xs.length = ys.length := not_not.mp fun hne => h _ (.unpaired hdegree hne)
  have hsamples := not_lt.mp fun hlt => h _ (.fewSamples hdegree hpaired hlt)
  exact ⟨hdegree, hpaired, hsamples,
    not_lt.mp fun hlt => h _ (.fewDistinct hdegree hpaired hsamples hlt)⟩

theorem answered_of_not_refused (hsized : Sized decompose) (hxs : ∀ x ∈ xs, x.isNaN = false)
    (h : ∀ e, ¬ Refused xs ys.length degree e) :
    Answered xs degree.toNat (decompose (matrix xs degree.toNat) (degree.toNat + 1)).rank
      (computeWith (.ofDecomposition decompose) xs ys degree) := by
  obtain ⟨hdegree, hpaired, hsamples, hdistinct⟩ := enough_of_not_refused h
  rw [← Polynomial.distinctCount_eq_length_eraseDups hxs] at hdistinct
  unfold computeWith
  rw [if_neg (not_lt.mpr hdegree), if_neg (not_not.mpr hpaired), if_neg (not_lt.mpr hsamples),
    Polynomial.leastSquares_of_enough hdistinct rfl]
  split_ifs with hrank
  · exact .lowRank hrank
  · rw [not_lt] at hrank
    rw [Except.ok_bind]
    dsimp only
    have hsome : ys ≠ [] := by
      rintro rfl
      rw [hpaired] at hsamples
      exact absurd hsamples (Nat.not_succ_le_zero _)
    have hlength : ∀ g : Float → Float, ys.length = (xs.map g).length := by
      intro g
      rw [List.length_map, hpaired]
    obtain ⟨score, hscore⟩ | ⟨target, residual, hmissed⟩ := rSquared_cases (hlength _) hsome
    · rw [hscore]
      refine .fitted hrank ⟨rfl, ?_, List.length_map _, rfl⟩
      rw [Polynomial.Scaled.length_coefficientsHighestFirst]
      exact hsized _ _ _ hrank
    · rw [hmissed]
      exact .missed hrank target residual

/-- Whatever is reported as insufficient is fewer than required. -/
theorem lt_of_insufficient (hsized : Sized decompose) (hxs : ∀ x ∈ xs, x.isNaN = false)
    {required actual : ℕ}
    (h : computeWith (.ofDecomposition decompose) xs ys degree =
      .error (.insufficientData required actual)) : actual < required := by
  by_cases hrefused : ∃ e, Refused xs ys.length degree e
  · obtain ⟨e, he⟩ := hrefused
    rw [computeWith_of_refused hxs _ he] at h
    obtain rfl := Except.error.inj h
    cases he with
    | fewSamples _ _ hfew => exact hfew
    | fewDistinct _ _ _ hfew => exact hfew
  · have hanswered := answered_of_not_refused hsized hxs (not_exists.mp hrefused)
    rw [h] at hanswered
    cases hanswered with
    | lowRank hlow => exact hlow

end Request

/-! ## Configured degrees -/

section Configured

variable {solve : Solver Float} {degree : UInt64}

theorem signedDegree_eq (degree : UInt64) :
    signedDegree degree =
      if degree.toNat < 2 ^ 63 then (degree.toNat : ℤ) else degree.toNat - 2 ^ 64 := by
  have hsigned : signedDegree degree = (degree.toNat : ℤ).bmod (2 ^ 64) :=
    BitVec.toInt_eq_toNat_bmod degree.toBitVec
  have hword := degree.toNat_lt
  rw [hsigned, Int.bmod_def]
  split_ifs <;> omega

/-- A fit that succeeds has the configured degree. -/
theorem degree_of_configured {xs ys : List Float} {f : Fit Float}
    (h : computeWith solve xs ys (signedDegree degree) = .ok f) : f.degree = degree.toNat := by
  obtain ⟨hnonneg, -, -, p, score, -, -, rfl⟩ := computeWith_eq_ok_iff.mp h
  have hword := degree.toNat_lt
  have hsigned := signedDegree_eq degree
  show (signedDegree degree).toNat = degree.toNat
  split_ifs at hsigned <;> omega

/-- The upper half of the degrees is negative for a fit. -/
theorem computeWith_of_large_degree (h : 2 ^ 63 ≤ degree.toNat) (xs ys : List Float) :
    computeWith solve xs ys (signedDegree degree) =
      .error (.invalidDegree (degree.toNat - 2 ^ 64)) := by
  have hword := degree.toNat_lt
  rw [signedDegree_eq, if_neg (not_lt.mpr h)]
  exact if_pos (by omega)

end Configured

/-! ## All requests -/

/-- **What becomes of a request**: a refused request gets its reason, whatever the
target values are. Any other is answered by the rank of its matrix: the rank is
reported, or a constant target is missed, or there is a fit of the requested degree.
One more than the degree is always a word, and whatever is insufficient is fewer than
required. A fit of a series has the configured degree; the upper half of the degrees
is refused as negative. -/
theorem requests_classified {decompose : List (List Float) → ℕ → Decomposition Float}
    (hsized : Sized decompose) {xs ys : List Float} (hxs : ∀ x ∈ xs, x.isNaN = false)
    (degree : Int64) :
    (∀ e, Refused xs ys.length degree.toInt e → ∀ ys', ys'.length = ys.length →
      computeWith (.ofDecomposition decompose) xs ys' degree.toInt = .error e) ∧
    ((∀ e, ¬ Refused xs ys.length degree.toInt e) →
      Answered xs degree.toInt.toNat
        (decompose (matrix xs degree.toInt.toNat) (degree.toInt.toNat + 1)).rank
        (computeWith (.ofDecomposition decompose) xs ys degree.toInt)) ∧
    degree.toInt.toNat + 1 < UInt64.size ∧
    (∀ required actual, computeWith (.ofDecomposition decompose) xs ys degree.toInt =
      .error (.insufficientData required actual) → actual < required) ∧
    ∀ (solve : Solver Float) (s : Series) (settings : AnalysisSettings),
      (∀ f, (SeriesFits.ofSeries solve s settings).time = .ok f →
        f.degree = settings.timeDegree.toNat) ∧
      (∀ f, (SeriesFits.ofSeries solve s settings).derivative = some (.ok f) →
        f.degree = settings.effectiveDerivativeDegree.toNat) ∧
      (2 ^ 63 ≤ settings.timeDegree.toNat →
        (SeriesFits.ofSeries solve s settings).time =
          .error (.invalidDegree (settings.timeDegree.toNat - 2 ^ 64))) ∧
      (2 ^ 63 ≤ settings.effectiveDerivativeDegree.toNat → s.derivatives.isSome →
        (SeriesFits.ofSeries solve s settings).derivative =
          some (.error (.invalidDegree (settings.effectiveDerivativeDegree.toNat - 2 ^ 64)))) := by
  refine ⟨?_, answered_of_not_refused hsized hxs, ?_, fun _ _ => lt_of_insufficient hsized hxs, ?_⟩
  · intro e he ys' hlength
    rw [← hlength] at he
    exact computeWith_of_refused hxs _ he
  · have hlt := degree.toInt_lt
    show degree.toInt.toNat + 1 < 2 ^ 64
    omega
  · intro solve s settings
    refine ⟨fun f => degree_of_configured, ?_, fun h => computeWith_of_large_degree h _ _, ?_⟩
    · intro f h
      obtain ⟨ds, -, h⟩ := SeriesFits.derivative_ofSeries_eq_some_iff.mp h
      exact degree_of_configured h
    · intro h hsome
      obtain ⟨ds, hds⟩ := Option.isSome_iff_exists.mp hsome
      exact SeriesFits.derivative_ofSeries_eq_some_iff.mpr
        ⟨ds, hds, computeWith_of_large_degree h _ _⟩

/-- Both zeros are one abscissa, so that these four samples determine a line but
no cubic. -/
theorem requests_classified_signed_zeros :
    Sized Polynomial.Rotations.decompose ∧
    (∀ x ∈ [-1, -0.0, 0, (1 : Float)], x.isNaN = false) ∧
    (∀ ys : List Float, ys.length = 4 →
      computeWith Polynomial.Rotations.solve [-1, -0.0, 0, 1] ys (-1) =
        .error (.invalidDegree (-1)) ∧
      computeWith Polynomial.Rotations.solve [-1, -0.0, 0, 1] ys 3 =
        .error (.insufficientData 4 3)) ∧
    ∃ f, computeWith Polynomial.Rotations.solve [-1, -0.0, 0, 1] [1, 2, 2, 3] 1 = .ok f ∧
      Shaped [-1, -0.0, 0, 1] 1 f := by
  have hsized : Sized Polynomial.Rotations.decompose := fun rows n target _ =>
    Polynomial.Rotations.length_coefficients rows n target
  have hxs : ∀ x ∈ [-1, -0.0, 0, (1 : Float)], x.isNaN = false := by decide
  have hnegative : Refused [-1, -0.0, 0, 1] 4 (-1) (.invalidDegree (-1)) :=
    .negative (by decide)
  have hcubic : Refused [-1, -0.0, 0, 1] 4 3 (.insufficientData 4 3) :=
    .fewDistinct (by decide) rfl (by decide) (by decide)
  have hline : ∀ e, ¬ Refused [-1, -0.0, 0, 1] 4 1 e := by
    rintro e (h | ⟨-, h⟩ | ⟨-, -, h⟩ | ⟨-, -, -, h⟩) <;> exact absurd h (by decide)
  have hfit : computeWith Polynomial.Rotations.solve [-1, -0.0, 0, 1] [1, 2, 2, 3] (1 : ℕ) =
      .ok ⟨1, [0.9999999999999999, 2], [1, 2, 2, 3], 1,
        some ⟨[2, 0.9999999999999999], 0, 1⟩⟩ := by
    apply computeWith_of_solved
    all_goals decide +kernel
  refine ⟨hsized, hxs, fun ys hys => ⟨?_, ?_⟩, _, hfit, ?_⟩
  · exact (requests_classified hsized hxs (-1)).1 _ (hys ▸ hnegative) ys rfl
  · exact (requests_classified hsized hxs 3).1 _ (hys ▸ hcubic) ys rfl
  · obtain ⟨-, hanswered, -⟩ := @requests_classified _ hsized _ [1, 2, 2, 3] hxs 1
    replace hanswered := hanswered hline
    rw [show (1 : Int64).toInt = (1 : ℕ) by decide] at hanswered
    unfold Polynomial.Rotations.solve at hfit
    rw [hfit] at hanswered
    cases hanswered with
    | fitted _ hshaped => exact hshaped

end GrowthCurve.Fit
