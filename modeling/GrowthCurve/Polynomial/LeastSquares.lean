import GrowthCurve.Polynomial.Basic
import GrowthCurve.Fit.Error

/-!
# Least squares

The abscissae are moved to their mean and scaled by their largest distance from
it, so that they fill `[-1, 1]` and the powers stay comparable. A linear solver
then finds the coefficients over the powers of that variable.
-/

namespace GrowthCurve.Polynomial

variable {α : Type} [Scalar α]

/-- The elements after `kept`, without those that are the same number as the
one that was kept last. -/
def dropRepeatsOf (kept : α) : List α → List α
  | [] => []
  | y :: rest =>
    if Scalar.same kept y then dropRepeatsOf kept rest else y :: dropRepeatsOf y rest

/-- Keeps the first of every run of elements that are the same number. -/
def dropRepeats : List α → List α
  | [] => []
  | x :: rest => x :: dropRepeatsOf x rest

/-- The number of distinct values, found by sorting. -/
def distinctCount (xs : List α) : Nat :=
  (dropRepeats (xs.mergeSort Scalar.precedes)).length

def centre (xs : List α) : α :=
  Scalar.sum xs / Scalar.ofNat xs.length

/-- The largest distance from a point, or one if there is none. -/
def spread (shift : α) (xs : List α) : α :=
  let reach := (xs.map fun x => Scalar.magnitude (x - shift)).foldl Scalar.max (Scalar.ofNat 0)
  if Scalar.less (Scalar.ofNat 0) reach then reach else Scalar.ofNat 1

/-- One row per abscissa: its powers from `0` to `columns - 1`. -/
def design (ts : List α) (columns : Nat) : List (List α) :=
  ts.map fun t => (List.range columns).map (Scalar.power t)

/-- A linear solver takes the rows of a matrix, its number of columns and a
target. It answers with one coefficient per column, or with the rank of the
matrix if that is below the number of columns. -/
def Solver (α : Type) : Type :=
  List (List α) → Nat → List α → Except Nat (List α)

/-- What is known of a matrix that was taken apart: its numerical rank, and the
coefficients that fit a target best. -/
structure Decomposition (α : Type) where
  rank : Nat
  coefficients : List α → List α

/-- Solves by taking the matrix apart, unless its rank is too low. -/
def Solver.ofDecomposition (decompose : List (List α) → Nat → Decomposition α) : Solver α :=
  fun rows columns target =>
    let d := decompose rows columns
    if d.rank < columns then .error d.rank else .ok (d.coefficients target)

/-- The least-squares polynomial of degree `degree`, which needs more distinct
abscissae than its degree. -/
def leastSquares (solve : Solver α) (xs ys : List α) (degree : Nat) :
    Except (FitError α) (Scaled α) :=
  let columns := degree + 1
  let distinct := distinctCount xs
  if distinct < columns then .error (.insufficientData columns distinct)
  else
    let shift := centre xs
    let scale := spread shift xs
    let rows := design (xs.map fun x => (x - shift) / scale) columns
    match solve rows columns ys with
    | .error rank => .error (.insufficientData columns rank)
    | .ok coefficients => .ok ⟨coefficients, shift, scale⟩

end GrowthCurve.Polynomial
