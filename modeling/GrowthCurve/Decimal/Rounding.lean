/-!
# Rounding a quotient to an integer

Every decimal text of a number is decided by one rounding of an exact quotient.
-/

namespace GrowthCurve.Decimal

/-- Where a quotient goes that lies halfway between two integers. -/
inductive Tie where
  | toEven
  | up
deriving Repr, DecidableEq

/-- `num / den` rounded to the nearest integer. -/
def roundDiv (num den : Nat) (tie : Tie) : Nat :=
  let q := num / den
  let r := num % den
  if 2 * r < den then q
  else if den < 2 * r then q + 1
  else match tie with
    | .up => q + 1
    | .toEven => if q % 2 = 0 then q else q + 1

/-- The fraction `m · 2 ^ e · 10 ^ k` as numerator and denominator. -/
def scaledFraction (m : Nat) (e k : Int) : Nat × Nat :=
  (m * Nat.pow 2 e.toNat * Nat.pow 10 k.toNat, Nat.pow 2 (-e).toNat * Nat.pow 10 (-k).toNat)

/-- The least `k` with `m · 2 ^ e < 10 ^ k`, for `m` above zero: the number of
digits before the point, or minus the number of zeros after it. -/
def decimalExponent (m : Nat) (e : Int) : Int :=
  -- Below the answer by a few steps at most: 1233 / 4096 is just under the logarithm of two.
  let estimate := Int.fdiv (((m.log2 : Int) + e) * 1233) 4096 - 2
  let fits (k : Int) : Bool :=
    let (num, den) := scaledFraction m e (-k)
    num < den
  (((List.range 8).map fun (i : Nat) => estimate + (i : Int)).find? fits).getD (estimate + 8)

end GrowthCurve.Decimal
