import GrowthCurve.Scalar

/-!
# Dashes

A dashed curve is cut into pieces along its length, where each axis is measured
in units of its span so that dashes look alike in every direction. The pattern
runs on across the vertices of the curve.
-/

namespace GrowthCurve.Plot

variable {α : Type} [Scalar α]

structure DashPattern (α : Type) where
  dash : α
  gap : α
  /-- The lengths that count as one along each axis. -/
  spans : α × α

namespace DashPattern

/-- A span as a unit of length; without extent the unit is one. -/
def unit (span : α) : α :=
  if Scalar.less (Scalar.ofNat 0) span then span else Scalar.ofNat 1

/-- The distance between two points in units of the spans. -/
def distance (d : DashPattern α) (a b : α × α) : α :=
  Scalar.length ((b.1 - a.1) / unit d.spans.1) ((b.2 - a.2) / unit d.spans.2)

/-- The length of the coming part of the pattern. -/
def part (d : DashPattern α) (drawing : Bool) : α :=
  if drawing then d.dash else d.gap

end DashPattern

/-- The point at the fraction `t` of the way between two points. -/
def between (a b : α × α) (t : α) : α × α :=
  (a.1 + (b.1 - a.1) * t, a.2 + (b.2 - a.2) * t)

/-- A pen on its way along a curve: whether it draws, how much is left of the
current part of the pattern, the vertices of the unfinished piece and the
finished pieces, both in reverse. -/
structure Pen (α : Type) where
  drawing : Bool
  remaining : α
  current : List (α × α)
  finished : List (List (α × α))

namespace Pen

/-- Ends the current part of the pattern at a point and begins the next one. -/
def cutAt (d : DashPattern α) (pen : Pen α) (point : α × α) : Pen α :=
  let piece := point :: pen.current
  { drawing := !pen.drawing
    remaining := d.part (!pen.drawing)
    current := if pen.drawing then [] else piece
    finished := if pen.drawing then piece.reverse :: pen.finished else pen.finished }

/-- Reaches the end of a segment within the current part. -/
def arrive (pen : Pen α) (length : α) (stop : α × α) : Pen α :=
  { pen with
    remaining := pen.remaining - length
    current := if pen.drawing then stop :: pen.current else pen.current }

/-- Walks along a segment of a known length. Every cut uses up one unit of
fuel; what is left is returned, and nothing if the fuel does not suffice. -/
def along (d : DashPattern α) : (fuel : Nat) → (start stop : α × α) → (length : α) → Pen α →
    Option (Nat × Pen α)
  | 0, _, stop, length, pen =>
    if Scalar.less pen.remaining length then none else some (0, pen.arrive length stop)
  | fuel + 1, start, stop, length, pen =>
    if Scalar.less pen.remaining length then
      let cut := between start stop (pen.remaining / length)
      along d fuel cut stop (length - pen.remaining) (pen.cutAt d cut)
    else some (fuel + 1, pen.arrive length stop)

/-- Walks along the segments between consecutive points. -/
def follow (d : DashPattern α) : (fuel : Nat) → List (α × α) → Pen α → Option (Pen α)
  | fuel, a :: b :: rest, pen =>
    match along d fuel a b (d.distance a b) pen with
    | some (left, pen) => follow d left (b :: rest) pen
    | none => none
  | _, _, pen => some pen

/-- All pieces, the last one included if it has two vertices or more. -/
def pieces (pen : Pen α) : List (List (α × α)) :=
  let last := if pen.drawing && 1 < pen.current.length then [pen.current.reverse] else []
  pen.finished.reverse ++ last

end Pen

/-- The pieces of a dashed curve, or nothing if cutting it takes more steps
than the fuel allows. The cuts do not end where a segment is too long for the
pattern to shorten it. -/
def dashPieces (d : DashPattern α) (fuel : Nat) (points : List (α × α)) :
    Option (List (List (α × α))) :=
  (Pen.follow d fuel points ⟨true, d.dash, points.take 1, []⟩).map Pen.pieces

end GrowthCurve.Plot
