import GrowthCurve.Scalar
import GrowthCurve.Fit.Error

/-!
# Scores

The coefficient of determination compares the squared residuals with the
squared deviations from the mean. A constant target has no deviations; it is
either reproduced, which scores one, or missed, which is an error.
-/

namespace GrowthCurve

variable {α : Type} [Scalar α]

/-- The arithmetic mean, zero for no values. -/
def mean (values : List α) : α :=
  if values.isEmpty then Scalar.ofNat 0
  else Scalar.sum values / Scalar.ofNat values.length

namespace Score

/-- The relative residual up to which a constant target counts as reproduced. -/
def tolerance : α := OfScientific.ofScientific 1 true 9

/-- The largest residual by magnitude; residuals that are no numbers are passed over. -/
def maxResidual (actual predicted : List α) : α :=
  (List.zipWith (fun y p => Scalar.magnitude (y - p)) actual predicted).foldl Scalar.max
    (Scalar.ofNat 0)

/-- The score of predictions for a target that is constant. -/
def ofConstant (target : α) (actual predicted : List α) : Except (FitError α) α :=
  let residual := maxResidual actual predicted
  if Scalar.atMost residual (tolerance * Scalar.max (Scalar.magnitude target) (Scalar.ofNat 1)) then
    .ok (Scalar.ofNat 1)
  else .error (.degenerate target residual)

def squaresAbout (mu : α) (values : List α) : α :=
  Scalar.sum (values.map fun y => Scalar.power (y - mu) 2)

def squaredResiduals (actual predicted : List α) : α :=
  Scalar.sum (List.zipWith (fun y p => Scalar.power (y - p) 2) actual predicted)

end Score

open Score in
/-- The coefficient of determination of predictions. Whether the target is
constant is decided on its values, since the mean of equal numbers need not be
that number. -/
def rSquared (actual predicted : List α) : Except (FitError α) α :=
  if actual.length ≠ predicted.length then
    .error (.lengthMismatch predicted.length actual.length)
  else match actual with
    | [] => .error (.insufficientData 1 0)
    | first :: _ =>
      if actual.all fun y => Scalar.same y first then ofConstant first actual predicted
      else
        .ok (Scalar.ofNat 1 - squaredResiduals actual predicted / squaresAbout (mean actual) actual)

end GrowthCurve
