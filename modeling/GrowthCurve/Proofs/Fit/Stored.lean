import Mathlib
import GrowthCurve.Proofs.Document.Forms
import GrowthCurve.Proofs.Fit.Minimal
import GrowthCurve.Proofs.Report.RoundTrip

/-!
# Stored fits

A document keeps the degree, the coefficients, the predictions and the score of
a fit, but not its scaled polynomial. A fit that was stored evaluates by its
coefficients. Over exact scalars this makes no difference to any value. Over
doubles a fit comes back from its text if all of its numbers are finite.
-/

namespace GrowthCurve.Fit

open scoped Exact

variable {K : Type} [Field K] [LinearOrder K] [IsStrictOrderedRing K]

/-- **Stored fits keep their values**: both ways to evaluate a scaled polynomial agree,
by its own parameter and by its expanded coefficients, so that a fit has the same
values before and after it was stored; a document drops the scaled polynomial and
nothing else. -/
theorem stored_fit_keeps_values :
    (∀ (p : Polynomial.Scaled K) (x : K),
      Polynomial.evaluate p.coefficientsHighestFirst x = p.evaluate x) ∧
    (∀ (solve : Polynomial.Solver K) (xs ys : List K) (degree : Int) (f : Fit K),
      computeWith solve xs ys degree = .ok f →
        ∀ x, f.withoutCurve.evaluate x = f.evaluate x) ∧
    (∀ f : Fit Float, f.degree < 2 ^ 64 → form.decode f.toDocument = .ok f.withoutCurve) := by
  refine ⟨Polynomial.Scaled.evaluate_coefficientsHighestFirst, ?_,
    fun f hf => decode_toDocument hf⟩
  intro solve xs ys degree f hf x
  obtain ⟨p, hcurve, hcoefficients⟩ := curve_of_computeWith hf
  have hstored : f.withoutCurve.evaluate x = Polynomial.evaluate f.coefficients x := rfl
  have hkept : f.evaluate x = p.evaluate x := by
    unfold evaluate
    rw [hcurve]
  rw [hstored, hkept, hcoefficients]
  exact p.evaluate_coefficientsHighestFirst x

theorem stored_fit_keeps_values_three_points :
    Polynomial.evaluate (⟨[1, 2, 3], 1, 2⟩ : Polynomial.Scaled ℚ).coefficientsHighestFirst 5 =
      17 ∧
    (∃ f, computeWith (fun _ _ _ => .ok [2, 1 / 2]) [0, 1, (2 : ℚ)] [1, 3, 2] (1 : ℕ) = .ok f ∧
      ∀ x, f.withoutCurve.evaluate x = f.evaluate x) ∧
    form.decode (⟨1, [0.5, 1.5], [1.5, 2, 2.5], 0.25, some ⟨[2, 0.5], 1, 1⟩⟩ :
      Fit Float).toDocument = .ok ⟨1, [0.5, 1.5], [1.5, 2, 2.5], 0.25, none⟩ := by
  have hvalue : (⟨[1, 2, 3], 1, 2⟩ : Polynomial.Scaled ℚ).evaluate 5 = 17 := by
    norm_num [Polynomial.Scaled.evaluate, Polynomial.Scaled.parameter, Polynomial.evaluate]
  obtain ⟨hexpand, hstored, hdocument⟩ := stored_fit_keeps_values (K := ℚ)
  have hdistinct : 1 + 1 ≤ [0, 1, (2 : ℚ)].toFinset.card := by decide
  have hlength : [0, 1, (2 : ℚ)].length = [1, 3, (2 : ℚ)].length := rfl
  obtain ⟨p, score, hfit, -⟩ :=
    exists_minimal_curve hlength hdistinct findsMinimiser_three_points
  exact ⟨(hexpand _ 5).trans hvalue, ⟨_, hfit, hstored _ _ _ _ _ hfit⟩,
    hdocument _ (by norm_num)⟩

/-! ## Texts -/

/-- The numbers of a fit that a document keeps. -/
def reals (f : Fit Float) : List Float :=
  f.coefficients ++ f.predicted ++ [f.rSquared]

theorem reread_toDocument {f : Fit Float} (hdegree : f.degree < 2 ^ 64) (hcode : ReadBack f.reals)
    (hfinite : ∀ x ∈ f.reals, x.isFinite = true) : Json.reread f.toDocument = f.toDocument := by
  have hkept : ∀ xs ⊆ f.reals, Json.reread (.ofReals xs) = .ofReals xs := fun xs hxs =>
    Json.reread_ofReals (fun x hx => hcode x (hxs hx)) fun x hx => hfinite x (hxs hx)
  have hcoefficients := hkept f.coefficients
    fun x hx => List.mem_append_left _ (List.mem_append_left _ hx)
  have hpredicted := hkept f.predicted
    fun x hx => List.mem_append_left _ (List.mem_append_right _ hx)
  have hmem : f.rSquared ∈ f.reals := List.mem_append_right _ (List.mem_singleton_self _)
  have hscore := Json.reread_of_isFinite hcode hmem (hfinite _ hmem)
  unfold toDocument
  rw [Json.reread_ofEntries]
  simp only [List.map_cons, List.map_nil, Json.reread_integer hdegree, hcoefficients, hpredicted,
    hscore]

/-- **The text of a fit**: a fit of finite numbers comes back from its JSON text with
its degree, coefficients, predictions and score, and without its scaled polynomial. -/
theorem ofJson_toJson {f : Fit Float} (hdegree : f.degree < 2 ^ 64) (hcode : ReadBack f.reals)
    (hfinite : ∀ x ∈ f.reals, x.isFinite = true) : ofJson f.toJson = .ok f.withoutCurve := by
  unfold ofJson toJson
  rw [Json.decode_write, reread_toDocument hdegree hcode hfinite]
  exact decode_toDocument hdegree

end GrowthCurve.Fit
