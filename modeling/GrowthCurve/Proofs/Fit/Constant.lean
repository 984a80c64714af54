import Mathlib
import GrowthCurve.Fit.Score
import GrowthCurve.Proofs.Binary.Order

/-!
# Scores of constant targets

Over doubles a constant target scores one or the fit is degenerate, whatever the
predictions are. It is the largest residual that decides, and a residual that is
no number is never the largest one. A prediction that is NaN therefore counts
neither as a match nor as a miss.
-/

namespace GrowthCurve.Score

open GrowthCurve.Binary

/-- How far every prediction is from its target. -/
def residuals (actual predicted : List Float) : List Float :=
  List.zipWith (fun y p => (y - p).abs) actual predicted

/-- How far predictions of a constant target may be off. -/
def allowance (target : Float) : Float :=
  tolerance * Scalar.max target.abs 1

variable {actual predicted : List Float}

theorem zero_le_allowance {target : Float} (h : target.isNaN = false) : 0 ≤ allowance target := by
  have hmagnitude : target.abs.isNaN = false := (isNaN_abs target).trans h
  have hone : (1 : Float) ≤ Scalar.max target.abs 1 := le_max_right hmagnitude (by decide)
  have htolerance : (0 : Float) < tolerance := by decide
  exact mul_nonneg_of_pos htolerance (lt_of_lt_of_le (by decide) hone)

/-! ## The largest residual -/

theorem maxResidual_le_iff {b : Float} :
    maxResidual actual predicted ≤ b ↔
      0 ≤ b ∧ ∀ r ∈ residuals actual predicted, r.isNaN = true ∨ r ≤ b :=
  foldl_max_le_iff _ (by decide)

/-- Between finite targets and their predictions, it is the predictions that
make a residual NaN. -/
theorem residuals_without_nan (hlength : actual.length = predicted.length)
    (hfinite : ∀ y ∈ actual, y.isFinite = true) :
    (∀ r ∈ residuals actual predicted, r.isNaN = false) ↔ ∀ p ∈ predicted, p.isNaN = false := by
  induction actual generalizing predicted with
  | nil =>
      rw [List.eq_nil_of_length_eq_zero hlength.symm]
      simp [residuals]
  | cons y actual ih =>
      cases predicted with
      | nil => simp at hlength
      | cons p predicted =>
          have hrest := ih (by simpa using hlength)
            fun y hy => hfinite y (List.mem_cons_of_mem _ hy)
          have hresidual : (y - p).abs.isNaN = p.isNaN :=
            (isNaN_abs _).trans (isNaN_sub (hfinite y List.mem_cons_self) p)
          show (∀ r ∈ (y - p).abs :: residuals actual predicted, r.isNaN = false) ↔ _
          rw [List.forall_mem_cons, List.forall_mem_cons, hresidual, hrest]

/-- Passing over NaN makes no difference without NaN, and none where another
residual is too large anyway. -/
theorem pass_over_nan_iff {rs : List Float} {b : Float} :
    ((∀ r ∈ rs, r.isNaN = true ∨ r ≤ b) ↔ ∀ r ∈ rs, r ≤ b) ↔
      (∀ r ∈ rs, r.isNaN = false) ∨ ∃ r ∈ rs, r.isNaN = false ∧ ¬ r ≤ b := by
  constructor
  · intro hsame
    by_cases hbound : ∀ r ∈ rs, r ≤ b
    · exact .inl fun r hr => (le_iff.mp (hbound r hr)).1
    · have hlarge := mt hsame.mp hbound
      push Not at hlarge
      obtain ⟨r, hr, hnumber, hexceeds⟩ := hlarge
      exact .inr ⟨r, hr, by simpa using hnumber, hexceeds⟩
  · rintro (hnumbers | ⟨r, hr, hnumber, hexceeds⟩)
    · refine forall₂_congr fun r hr => ?_
      rw [hnumbers r hr]
      exact or_iff_right Bool.false_ne_true
    · have hbound : ¬ ∀ r ∈ rs, r ≤ b := fun h => hexceeds (h r hr)
      refine iff_of_false (fun h => ?_) hbound
      rcases h r hr with hnan | hle
      · rw [hnumber] at hnan
        exact Bool.false_ne_true hnan
      · exact hexceeds hle

/-! ## The score -/

variable {first : Float} {rest : List Float}

theorem rSquared_of_constant (hlength : (first :: rest).length = predicted.length)
    (hconstant : ∀ y ∈ first :: rest, (y == first) = true) :
    rSquared (first :: rest) predicted = ofConstant first (first :: rest) predicted := by
  have hall : ((first :: rest).all fun y => Scalar.same y first) = true :=
    List.all_eq_true.mpr hconstant
  unfold rSquared
  rw [if_neg (not_not.mpr hlength)]
  simp only [hall, if_true]

/-- Numbers that all equal the first one equal each other. -/
theorem constant_iff :
    (∀ y ∈ first :: rest, (y == first) = true) ↔
      ∀ y ∈ first :: rest, ∀ z ∈ first :: rest, (y == z) = true := by
  constructor
  · intro h y hy z hz
    exact BEq.trans (h y hy) (BEq.symm (h z hz))
  · intro h y hy
    exact h y hy first List.mem_cons_self

theorem rSquared_of_not_constant (hlength : (first :: rest).length = predicted.length)
    (hconstant : ¬ ∀ y ∈ first :: rest, (y == first) = true) :
    rSquared (first :: rest) predicted =
      .ok (1 - squaredResiduals (first :: rest) predicted /
        squaresAbout (mean (first :: rest)) (first :: rest)) := by
  have hall : ((first :: rest).all fun y => Scalar.same y first) = false := by
    rw [← Bool.not_eq_true, List.all_eq_true]
    exact hconstant
  unfold rSquared
  rw [if_neg (not_not.mpr hlength)]
  simp only [hall]
  rfl

theorem ofConstant_eq (target : Float) (actual predicted : List Float) :
    ofConstant target actual predicted =
      if maxResidual actual predicted ≤ allowance target then .ok 1
      else .error (.degenerate target (maxResidual actual predicted)) :=
  rfl

/-- **The score of a constant target**: it is one if no number among the residuals
exceeds the tolerance, and the fit is degenerate otherwise. That every residual
respects the tolerance says the same where none is NaN and where another one exceeds
it anyway. With finite targets NaN can only come from the predictions. -/
theorem score_of_constant_target (hlength : (first :: rest).length = predicted.length)
    (hconstant : ∀ y ∈ first :: rest, (y == first) = true) :
    (rSquared (first :: rest) predicted = .ok 1 ∨
      rSquared (first :: rest) predicted =
        .error (.degenerate first (maxResidual (first :: rest) predicted))) ∧
    (rSquared (first :: rest) predicted = .ok 1 ↔
      ∀ r ∈ residuals (first :: rest) predicted, r.isNaN = true ∨ r ≤ allowance first) ∧
    ((rSquared (first :: rest) predicted = .ok 1 ↔
        ∀ r ∈ residuals (first :: rest) predicted, r ≤ allowance first) ↔
      (∀ r ∈ residuals (first :: rest) predicted, r.isNaN = false) ∨
        ∃ r ∈ residuals (first :: rest) predicted, r.isNaN = false ∧ ¬ r ≤ allowance first) ∧
    (first.isFinite = true →
      ((∀ r ∈ residuals (first :: rest) predicted, r.isNaN = false) ↔
        ∀ p ∈ predicted, p.isNaN = false)) := by
  have hscore := rSquared_of_constant hlength hconstant
  have hfirst : first.isNaN = false := (beq_iff.mp (hconstant first List.mem_cons_self)).1
  have hwithin : maxResidual (first :: rest) predicted ≤ allowance first ↔
      ∀ r ∈ residuals (first :: rest) predicted, r.isNaN = true ∨ r ≤ allowance first :=
    maxResidual_le_iff.trans (and_iff_right (zero_le_allowance hfirst))
  have hone : rSquared (first :: rest) predicted = .ok 1 ↔
      ∀ r ∈ residuals (first :: rest) predicted, r.isNaN = true ∨ r ≤ allowance first := by
    rw [hscore, ← hwithin, ofConstant_eq]
    split
    case isTrue h => exact iff_of_true rfl h
    case isFalse h => exact iff_of_false nofun h
  refine ⟨?_, hone, ?_, fun hfinite => ?_⟩
  · rw [hscore, ofConstant_eq]
    split
    case isTrue => exact .inl rfl
    case isFalse => exact .inr rfl
  · rw [hone]
    exact pass_over_nan_iff
  · apply residuals_without_nan hlength
    intro y hy
    rw [isFinite_eq_of_beq (hconstant y hy), hfinite]

theorem score_of_constant_target_five :
    [5, 5, (5 : Float)].length = [5, 5.000000000000001, (5 : Float)].length ∧
    (∀ y ∈ [5, 5, (5 : Float)], (y == 5) = true) ∧
    rSquared [5, 5, 5] [5, 5.000000000000001, (5 : Float)] = .ok 1 ∧
    (rSquared [5, 5, 5] [5, 5.000000000000001, (5 : Float)] = .ok 1 ↔
      ∀ r ∈ residuals [5, 5, 5] [5, 5.000000000000001, 5], r ≤ allowance 5) ∧
    rSquared [5, 5, 5] [4, Float.nan, 6] = .error (.degenerate 5 1) := by
  have hlength : [5, 5, (5 : Float)].length = [5, 5.000000000000001, (5 : Float)].length := by
    decide
  have hlength' : [5, 5, (5 : Float)].length = [4, Float.nan, 6].length := by decide
  have hconstant : ∀ y ∈ [5, 5, (5 : Float)], (y == 5) = true := by decide
  obtain ⟨-, hone, hwithin, hnumbers⟩ := score_of_constant_target hlength hconstant
  obtain ⟨hends, hone', -, -⟩ := score_of_constant_target hlength' hconstant
  have hsmall : ∀ r ∈ residuals [5, 5, 5] [5, 5.000000000000001, 5],
      r.isNaN = true ∨ r ≤ allowance 5 := by decide
  have hlarge : ¬ ∀ r ∈ residuals [5, 5, 5] [4, Float.nan, 6],
      r.isNaN = true ∨ r ≤ allowance 5 := by decide
  have hfinite : (5 : Float).isFinite = true := by decide
  have hpredicted : ∀ p ∈ [5, 5.000000000000001, (5 : Float)], p.isNaN = false := by
    decide
  have hresidual : maxResidual [5, 5, 5] [4, Float.nan, 6] = 1 := by decide
  have hscore := hone.mpr hsmall
  have hmeets := hwithin.mpr (.inl ((hnumbers hfinite).mpr hpredicted))
  have hdegenerate := hends.resolve_left (mt hone'.mp hlarge)
  rw [hresidual] at hdegenerate
  exact ⟨hlength, hconstant, hscore, hmeets, hdegenerate⟩

/-- Predictions none of which is a number reproduce every constant. -/
theorem score_of_constant_target_nan :
    (∀ y ∈ [1, (1 : Float)], (y == 1) = true) ∧
    rSquared [1, 1] [Float.nan, Float.nan] = .ok 1 ∧
    ¬ ∀ r ∈ residuals [1, 1] [Float.nan, Float.nan], r ≤ allowance 1 := by
  decide

end GrowthCurve.Score
