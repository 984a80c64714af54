/-!
# Why a fit is refused
-/

namespace GrowthCurve

/-- The reasons for which samples have no fit or no score. -/
inductive FitError (α : Type) where
  /-- A degree below zero. -/
  | invalidDegree (degree : Int)
  /-- The columns differ in length. -/
  | lengthMismatch (xs ys : Nat)
  /-- Too few samples, distinct abscissae or independent columns. -/
  | insufficientData (required actual : Nat)
  /-- A constant target that the predictions miss. -/
  | degenerate (target maxResidual : α)
deriving Repr, DecidableEq

end GrowthCurve
