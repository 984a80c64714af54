import GrowthCurve.Scalar

/-!
# Axes

The axes of a panel span its finite points with some padding on every side.
-/

namespace GrowthCurve.Plot

variable {α : Type} [Scalar α]

structure Range (α : Type) where
  start : α
  stop : α
deriving Repr

namespace Range

def span (r : Range α) : α :=
  r.stop - r.start

/-- The smallest range over one coordinate of the points, if there are any. -/
def hull : List α → Option (Range α)
  | [] => none
  | x :: xs => some (xs.foldl (fun r y => ⟨Scalar.min r.start y, Scalar.max r.stop y⟩) ⟨x, x⟩)

/-- Headroom on each side, as a part of the span. -/
def padding : α := OfScientific.ofScientific 5 true 2

/-- A hull with its headroom. A single value is put into the middle of a range
of its own, and no value at all gives `0` to `1`. -/
def padded : Option (Range α) → Range α
  | none => ⟨Scalar.ofNat 0, Scalar.ofNat 1⟩
  | some r =>
    if Scalar.same r.start r.stop then
      let half :=
        Scalar.max (Scalar.magnitude r.start * padding) (OfScientific.ofScientific 5 true 1)
      ⟨r.start - half, r.stop + half⟩
    else
      let pad := (r.stop - r.start) * padding
      ⟨r.start - pad, r.stop + pad⟩

end Range

/-- The points with two finite coordinates. -/
def finitePoints (points : List (α × α)) : List (α × α) :=
  points.filter fun p => Scalar.isFinite p.1 && Scalar.isFinite p.2

/-- The padded ranges of both axes. A point with one coordinate that is not
finite counts for neither axis. -/
def axisRanges (points : List (α × α)) : Range α × Range α :=
  let shown := finitePoints points
  (Range.padded (Range.hull (shown.map Prod.fst)), Range.padded (Range.hull (shown.map Prod.snd)))

end GrowthCurve.Plot
