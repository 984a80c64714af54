import GrowthCurve.Decimal.Rounding
import GrowthCurve.Binary

/-!
# The fewest digits that read back

A reader maps a whole interval of reals to one double. The shortest text of a
double is a decimal with the fewest digits inside that interval and, of those,
the one nearest to the exact value.
-/

namespace GrowthCurve.Decimal

/-- The number `digits · 10 ^ exponent`. -/
structure Digits where
  digits : Nat
  exponent : Int
deriving Repr, DecidableEq

/-- Compares `a · 10 ^ i` with `n · 2 ^ j`. -/
def compareScaled (a : Nat) (i : Int) (n : Nat) (j : Int) : Ordering :=
  compare (a * Nat.pow 10 i.toNat * Nat.pow 2 (-j).toNat)
    (n * Nat.pow 2 j.toNat * Nat.pow 10 (-i).toNat)

/-- Below a power of two the neighbouring double is only half as far away. -/
def narrowBelow (m : Nat) (e : Int) : Bool :=
  m = Nat.pow 2 52 && -1074 < e

/-- The decimal lies among the reals that round to `m · 2 ^ e`. The ends of the
interval belong to it when the mantissa is even. -/
def readsBack (m : Nat) (e : Int) (d : Digits) : Bool :=
  let low := if narrowBelow m e then 4 * m - 1 else 4 * m - 2
  let high := 4 * m + 2
  let closed := m % 2 == 0
  let fromLow := compareScaled d.digits d.exponent low (e - 2)
  let fromHigh := compareScaled d.digits d.exponent high (e - 2)
  (fromLow == .gt || (closed && fromLow == .eq)) &&
    (fromHigh == .lt || (closed && fromHigh == .eq))

/-- Moves trailing zeros into the exponent. -/
def Digits.strip : Nat → Digits → Digits
  | 0, d => d
  | fuel + 1, d =>
    if d.digits ≠ 0 ∧ d.digits % 10 = 0 then strip fuel ⟨d.digits / 10, d.exponent + 1⟩ else d

/-- The better of the two neighbours of `m · 2 ^ e` on the grid of step
`10 ^ g`, if one of them reads back. -/
def onGrid? (tie : Tie) (m : Nat) (e g : Int) : Option Digits :=
  let (num, den) := scaledFraction m e (-g)
  let low : Digits := ⟨num / den, g⟩
  let high : Digits := ⟨num / den + 1, g⟩
  match readsBack m e low, readsBack m e high with
  | true, true => some ⟨roundDiv num den tie, g⟩
  | true, false => some low
  | false, true => some high
  | false, false => none

/-- The shortest decimal of `m · 2 ^ e`: grids are tried from coarse to fine.
Seventeen digits are enough for every double; the exact value stands behind
them. -/
def shortest (tie : Tie) (m : Nat) (e : Int) : Digits :=
  if m = 0 then ⟨0, 0⟩
  else
    let k := decimalExponent m e
    let found := (List.range 17).findSome? fun (n : Nat) => onGrid? tie m e (k - (n : Int) - 1)
    let exact : Digits := ⟨m * Nat.pow 2 e.toNat * Nat.pow 5 (-e).toNat, min e 0⟩
    (found.getD exact).strip 800

end GrowthCurve.Decimal
