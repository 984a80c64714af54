import Mathlib
import GrowthCurve.Store
import GrowthCurve.Proofs.Outcome

/-!
# Writing a file

Writing changes the entry at one place, which was no directory before, so that
every path that led somewhere still leads there.
-/

namespace GrowthCurve.Store

variable {s s' : Store} {p : Path} {entry : Entry} {place other : List String}

/-! ## Entries -/

end GrowthCurve.Store
