import GrowthCurve.Polynomial.LeastSquares
import GrowthCurve.Fit.Score

/-!
# Fits

A fit is a polynomial of a chosen degree together with its predictions at the
samples and its score. While it is in memory it also keeps the scaled
polynomial, which evaluates with less rounding than the coefficients.
-/

namespace GrowthCurve

/-- A polynomial fitted to samples. -/
structure Fit (α : Type) where
  degree : Nat
  /-- Highest degree first. -/
  coefficients : List α
  /-- The fitted value at every abscissa, in order. -/
  predicted : List α
  rSquared : α
  curve : Option (Polynomial.Scaled α)
deriving Repr

namespace Fit

variable {α : Type} [Scalar α]

def evaluate (f : Fit α) (x : α) : α :=
  match f.curve with
  | some p => p.evaluate x
  | none => Polynomial.evaluate f.coefficients x

/-- Fits a polynomial with a given linear solver and scores it. The degree is
checked first, then the lengths, then the number of samples. -/
def computeWith (solve : Polynomial.Solver α) (xs ys : List α) (degree : Int) :
    Except (FitError α) (Fit α) :=
  if degree < 0 then .error (.invalidDegree degree)
  else if xs.length ≠ ys.length then .error (.lengthMismatch xs.length ys.length)
  else if xs.length < degree.toNat + 1 then
    .error (.insufficientData (degree.toNat + 1) xs.length)
  else do
    let p ← Polynomial.leastSquares solve xs ys degree.toNat
    let predicted := xs.map p.evaluate
    let score ← GrowthCurve.rSquared ys predicted
    return ⟨degree.toNat, p.coefficientsHighestFirst, predicted, score, some p⟩

end Fit

end GrowthCurve
