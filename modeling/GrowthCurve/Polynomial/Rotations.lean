import GrowthCurve.Polynomial.LeastSquares

/-!
# A solver by rotations

Columns of the matrix are turned against each other in pairs until all are
orthogonal. Their lengths are then the singular values, and the coefficients
are read off one column at a time. Columns shorter than a fixed fraction of the
longest one count as zero.
-/

namespace GrowthCurve.Polynomial.Rotations

/-- A combination of the columns of the matrix, together with its weights. -/
structure Column where
  image : List Float
  weights : List Float

def dot (a b : List Float) : Float :=
  (List.zipWith (· * ·) a b).foldl (· + ·) 0

def norm (a : List Float) : Float :=
  (dot a a).sqrt

def scaleBy (c : Float) (a : List Float) : List Float :=
  a.map (c * ·)

/-- `c · a + s · b`, entry by entry. -/
def combine (c s : Float) (a b : List Float) : List Float :=
  List.zipWith (fun x y => c * x + s * y) a b

/-- Cosines below this count as orthogonal. -/
def orthogonalBelow : Float := 1e-15

/-- Singular values below this fraction of the largest count as zero. -/
def rankTolerance : Float := 1e-12

/-- Turns two columns in their plane so that they become orthogonal. Says
whether there was anything to do. -/
def turn (p q : Column) : Column × Column × Bool :=
  let pp := dot p.image p.image
  let qq := dot q.image q.image
  let pq := dot p.image q.image
  if orthogonalBelow * (pp * qq).sqrt < pq.abs then
    let ratio := (qq - pp) / (2 * pq)
    let root := ratio.abs + (1 + ratio * ratio).sqrt
    let tangent := if ratio < 0 then -1 / root else 1 / root
    let cosine := 1 / (1 + tangent * tangent).sqrt
    let sine := cosine * tangent
    (⟨combine cosine (-sine) p.image q.image, combine cosine (-sine) p.weights q.weights⟩,
      ⟨combine sine cosine p.image q.image, combine sine cosine p.weights q.weights⟩, true)
  else (p, q, false)

/-- Turns one column against each of the others in order. -/
def turnAgainst (p : Column) : List Column → Column × List Column × Bool
  | [] => (p, [], false)
  | q :: rest =>
    let (p, q, moved) := turn p q
    let (p, rest, movedLater) := turnAgainst p rest
    (p, q :: rest, moved || movedLater)

/-- Turns each of the first `n` columns against all that follow it. -/
def sweep : (n : Nat) → List Column → List Column × Bool
  | n + 1, p :: rest =>
    let (p, rest, moved) := turnAgainst p rest
    let (rest, movedLater) := sweep n rest
    (p :: rest, moved || movedLater)
  | _, columns => (columns, false)

/-- Sweeps until nothing moves, at most `fuel` times. Convergence is quadratic,
so that a handful of sweeps is the rule. -/
def orthogonalise : (fuel : Nat) → List Column → List Column
  | 0, columns => columns
  | fuel + 1, columns =>
    match sweep columns.length columns with
    | (columns, true) => orthogonalise fuel columns
    | (columns, false) => columns

/-- The columns of a matrix, each with weight one on itself. -/
def columnsOf (rows : List (List Float)) (columns : Nat) : List Column :=
  (List.range columns).map fun j =>
    ⟨rows.map fun row => row.getD j 0, (List.range columns).map fun i => if i = j then 1 else 0⟩

/-- What an orthogonal column of length `sigma` adds to the coefficients. -/
def contribution (target : List Float) (column : Column) : List Float :=
  let sigma := norm column.image
  scaleBy (dot (column.image.map (· / sigma)) target / sigma) column.weights

/-- Takes a matrix apart by rotations. -/
def decompose (rows : List (List Float)) (columns : Nat) : Decomposition Float :=
  let turned := orthogonalise 60 (columnsOf rows columns)
  let lengths := turned.map fun c => norm c.image
  let tolerance := rankTolerance * lengths.foldl Scalar.max 0
  { rank := lengths.countP fun sigma => tolerance < sigma
    coefficients := fun target => (turned.map (contribution target)).foldl
      (List.zipWith (· + ·)) (List.replicate columns 0) }

/-- Solves by rotations, or reports the numerical rank. -/
def solve : Solver Float :=
  .ofDecomposition decompose

end GrowthCurve.Polynomial.Rotations
