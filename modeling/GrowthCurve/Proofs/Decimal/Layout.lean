import Mathlib
import GrowthCurve.Decimal.Layout
import GrowthCurve.Proofs.Decimal.Numerals

/-!
# Characters of scientific texts

A scientific text is made of digits, a point, a letter and signs, or is the name
of a number without digits. All of these are visible ASCII characters, so that
a blank or a character of another script can stand for the end of it.
-/

namespace GrowthCurve.Decimal

/-- A text of visible ASCII characters. -/
def Visible (s : String) : Prop :=
  ∀ c ∈ s.toList, 0x21 ≤ c.toNat ∧ c.toNat ≤ 0x7E

variable {s t : String}

theorem Visible.append (hs : Visible s) (ht : Visible t) : Visible (s ++ t) := by
  intro c hc
  rw [String.toList_append] at hc
  exact (List.mem_append.mp hc).elim (hs c) (ht c)

theorem Visible.not_mem {c : Char} (hs : Visible s) (hc : c.toNat < 0x21 ∨ 0x7E < c.toNat) :
    c ∉ s.toList := by
  intro hmem
  have := hs c hmem
  omega

theorem visible_of_isDigit (h : ∀ c ∈ s.toList, c.isDigit = true) : Visible s := by
  intro c hc
  have hrange : 48 ≤ c.toNat ∧ c.toNat ≤ 57 := by
    simpa [Char.isDigit, Char.le_def, UInt32.le_iff_toNat_le] using h c hc
  omega

theorem visible_natural (n : ℕ) : Visible (toString n) :=
  visible_of_isDigit fun _ => isDigit_of_mem_toString

theorem visible_integer (i : ℤ) : Visible (toString i) := by
  cases i with
  | ofNat n => exact visible_natural n
  | negSucc n =>
      have hminus : Visible "-" := by simp [Visible]
      exact hminus.append (visible_natural (n + 1))

theorem visible_zeros (n : ℕ) : Visible (String.ofList (List.replicate n '0')) := by
  apply visible_of_isDigit
  intro c hc
  rw [String.toList_ofList] at hc
  rw [List.eq_of_mem_replicate hc]
  rfl

theorem mem_of_mem_afterFirst {c : Char} (h : c ∈ (afterFirst s).toList) :
    c = '.' ∨ c ∈ s.toList := by
  unfold afterFirst at h
  split at h <;> rename_i hs
  · simp at h
  · rw [hs]
    exact .inr (by simpa using h)
  · rw [hs]
    simp only [String.toList_ofList, List.mem_cons] at h ⊢
    tauto

theorem Visible.afterFirst (hs : Visible s) : Visible (afterFirst s) := by
  intro c hc
  rcases mem_of_mem_afterFirst hc with rfl | hc
  · decide
  · exact hs c hc

theorem Visible.signed (hs : Visible s) (negative : Bool) : Visible (signed negative s) := by
  unfold Decimal.signed
  split_ifs
  · have hminus : Visible "-" := by simp [Visible]
    exact hminus.append hs
  · exact hs

theorem visible_special (x : Float) : Visible (special x) := by
  unfold special
  split_ifs <;> simp [Visible]

theorem visible_scientific (places : ℕ) (x : Float) : Visible (scientific places x) := by
  unfold scientific
  split
  · exact visible_special x
  · have hletter : Visible "e" := by simp [Visible]
    exact ((((visible_zeros _).append (visible_natural _)).afterFirst.append hletter).append
      (visible_integer _)).signed _

end GrowthCurve.Decimal
