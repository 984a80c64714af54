import Mathlib
import GrowthCurve.Decimal.Shortest

/-!
# The digits that are chosen

No number but zero is written with the digit zero alone, and zero needs no
exponent.
-/

namespace GrowthCurve.Decimal

/-- Zero stands without an exponent. -/
def Digits.Proper (d : Digits) : Prop :=
  d.digits = 0 → d.exponent = 0

theorem Digits.proper_of_pos {d : Digits} (h : 0 < d.digits) : d.Proper :=
  fun hzero => absurd hzero h.ne'

/-- Zero lies below the numbers that round to anything else. -/
theorem digits_pos_of_readsBack {m : ℕ} {e : Int} {d : Digits} (hm : 0 < m)
    (h : readsBack m e d = true) : 0 < d.digits := by
  by_contra hzero
  have hzero : d.digits = 0 := by omega
  have hlow : ∀ low, 0 < low → compareScaled 0 d.exponent low (e - 2) = .lt := by
    intro low hpos
    unfold compareScaled
    rw [Nat.zero_mul, Nat.zero_mul, Nat.compare_eq_lt]
    have htwo : 0 < Nat.pow 2 (e - 2).toNat := Nat.pow_pos (by decide)
    have hten : 0 < Nat.pow 10 (-d.exponent).toNat := Nat.pow_pos (by decide)
    exact Nat.mul_pos (Nat.mul_pos hpos htwo) hten
  have hpos : 0 < (if narrowBelow m e then 4 * m - 1 else 4 * m - 2) := by
    split <;> omega
  simp [readsBack, hzero, hlow _ hpos] at h

theorem div_le_roundDiv (num den : ℕ) (tie : Tie) : num / den ≤ roundDiv num den tie := by
  unfold roundDiv
  cases tie with
  | up =>
      dsimp only
      split_ifs <;> omega
  | toEven =>
      dsimp only
      split_ifs <;> omega

theorem digits_pos_of_onGrid? {tie : Tie} {m : ℕ} {e g : Int} {d : Digits} (hm : 0 < m)
    (h : onGrid? tie m e g = some d) : 0 < d.digits := by
  unfold onGrid? at h
  split at h
  rename_i num den _
  dsimp only at h
  split at h
  case h_1 hlow _ =>
    obtain rfl := Option.some.inj h
    have hquotient : 0 < num / den := digits_pos_of_readsBack hm hlow
    exact hquotient.trans_le (div_le_roundDiv num den tie)
  case h_2 hlow _ =>
    obtain rfl := Option.some.inj h
    exact digits_pos_of_readsBack hm hlow
  case h_3 =>
    obtain rfl := Option.some.inj h
    exact Nat.succ_pos _
  case h_4 => cases h

theorem Digits.strip_pos {fuel : ℕ} {d : Digits} (h : 0 < d.digits) :
    0 < (d.strip fuel).digits := by
  induction fuel generalizing d with
  | zero => exact h
  | succ fuel ih =>
      unfold Digits.strip
      split
      case isTrue hzero =>
        apply ih
        show 0 < d.digits / 10
        omega
      case isFalse => exact h

theorem shortest_proper (tie : Tie) (m : ℕ) (e : Int) : (shortest tie m e).Proper := by
  unfold shortest
  split
  case isTrue => exact fun _ => rfl
  case isFalse hm =>
    have hm : 0 < m := Nat.pos_of_ne_zero hm
    apply Digits.proper_of_pos
    apply Digits.strip_pos
    cases hfound : (List.range 17).findSome? fun (n : Nat) =>
        onGrid? tie m e (decimalExponent m e - (n : Int) - 1) with
    | none =>
        have htwo : 0 < Nat.pow 2 e.toNat := Nat.pow_pos (by decide)
        have hfive : 0 < Nat.pow 5 (-e).toNat := Nat.pow_pos (by decide)
        exact Nat.mul_pos (Nat.mul_pos hm htwo) hfive
    | some d =>
        obtain ⟨n, -, hgrid⟩ := List.exists_of_findSome?_eq_some hfound
        exact digits_pos_of_onGrid? hm hgrid

end GrowthCurve.Decimal
