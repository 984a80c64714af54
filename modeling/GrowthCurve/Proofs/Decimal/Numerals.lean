import Mathlib
import GrowthCurve.Decimal.Reading
import GrowthCurve.Text.Blank
import GrowthCurve.Proofs.Outcome

/-!
# Texts that are numbers

The decimal digits of a whole number are read back as that number. No text that
is read as a number holds a blank or a comma.
-/

namespace GrowthCurve.Decimal

/-! ## Whole numbers -/

theorem digit?_of_isDigit {c : Char} (h : c.isDigit = true) :
    digit? c = some (c.toNat - '0'.toNat) := by
  have hrange : '0' ≤ c ∧ c ≤ '9' := by
    simpa [Char.isDigit, Char.le_def] using h
  exact if_pos hrange

theorem isDigit_of_charIsDigit {c : Char} (h : c.isDigit = true) : isDigit c = true := by
  rw [isDigit, digit?_of_isDigit h, Option.isSome_some]

theorem le_ofDigitChars (cs : List Char) (value : ℕ) : value ≤ Nat.ofDigitChars 10 cs value := by
  induction cs generalizing value with
  | nil => exact le_refl value
  | cons c rest ih =>
      rw [Nat.ofDigitChars_cons]
      have := ih (10 * value + (c.toNat - '0'.toNat))
      omega

theorem readDigits_of_isDigit {limit value : ℕ} {overflow : ReadError} {cs : List Char}
    (hdigits : ∀ c ∈ cs, c.isDigit = true) (hlimit : Nat.ofDigitChars 10 cs value ≤ limit) :
    readDigits limit overflow value cs = .ok (Nat.ofDigitChars 10 cs value) := by
  induction cs generalizing value with
  | nil => rfl
  | cons c rest ih =>
      rw [Nat.ofDigitChars_cons, mul_comm] at hlimit ⊢
      have hstep := le_ofDigitChars rest (value * 10 + (c.toNat - '0'.toNat))
      simp only [readDigits, digit?_of_isDigit (hdigits c List.mem_cons_self)]
      rw [if_pos (hstep.trans hlimit)]
      exact ih (fun d hd => hdigits d (List.mem_cons_of_mem c hd)) hlimit

theorem natOfDigits_eq {cs : List Char} (h : ∀ c ∈ cs, c.isDigit = true) :
    natOfDigits cs = Nat.ofDigitChars 10 cs 0 := by
  have hfold : ∀ (cs : List Char) (value : ℕ), (∀ c ∈ cs, c.isDigit = true) →
      cs.foldl (fun n c => n * 10 + (digit? c).getD 0) value = Nat.ofDigitChars 10 cs value := by
    intro cs
    induction cs with
    | nil => exact fun _ _ => rfl
    | cons c rest ih =>
        intro value hdigits
        rw [List.foldl_cons, Nat.ofDigitChars_cons,
          digit?_of_isDigit (hdigits c List.mem_cons_self),
          mul_comm]
        exact ih _ fun d hd => hdigits d (List.mem_cons_of_mem c hd)
  exact hfold cs 0 h

theorem isDigit_of_mem_toString {n : ℕ} {c : Char} (h : c ∈ (toString n).toList) :
    c.isDigit = true := by
  rw [Nat.toString_eq_ofList_toDigits, String.toList_ofList] at h
  exact Nat.isDigit_of_mem_toDigits (by decide) (by decide) h

theorem ofDigitChars_toString (n : ℕ) : Nat.ofDigitChars 10 (toString n).toList 0 = n := by
  rw [Nat.toString_eq_ofList_toDigits, String.toList_ofList, Nat.ofDigitChars_ten_toDigits]

theorem toList_toString_ne_nil (n : ℕ) : (toString n).toList ≠ [] := by
  rw [Nat.toString_eq_ofList_toDigits, String.toList_ofList]
  exact Nat.toDigits_ne_nil

theorem natOfDigits_toString (n : ℕ) : natOfDigits (toString n).toList = n := by
  rw [natOfDigits_eq fun _ => isDigit_of_mem_toString, ofDigitChars_toString]

/-- A whole number within the bound is read back from its digits. -/
theorem readNatural_toString {limit n : ℕ} (h : n ≤ limit) :
    readNatural limit (toString n).toList = .ok n := by
  have hdigits : ∀ c ∈ (toString n).toList, c.isDigit = true := fun _ => isDigit_of_mem_toString
  have hvalue : readDigits limit .tooLarge 0 (toString n).toList = .ok n := by
    rw [readDigits_of_isDigit hdigits ((ofDigitChars_toString n).trans_le h),
      ofDigitChars_toString]
  unfold readNatural
  split
  · exact absurd ‹_› (toList_toString_ne_nil n)
  · rename_i hplus
    rw [hplus] at hdigits
    exact absurd (hdigits '+' (by simp)) (by decide)
  · rename_i rest hplus
    rw [hplus] at hdigits
    exact absurd (hdigits '+' (by simp)) (by decide)
  · exact hvalue

/-! ## Characters of numbers -/

/-- A character that neither pads a field nor ends it. -/
def Solid (c : Char) : Prop :=
  Text.isBlank c = false ∧ c ≠ ','

/-- The visible ASCII characters are solid but for the comma. -/
theorem solid_of_visible {c : Char} (h : 0x21 ≤ c.toNat ∧ c.toNat ≤ 0x7E ∧ c ≠ ',') :
    Solid c := by
  refine ⟨?_, h.2.2⟩
  simp [Text.isBlank, Text.blankRanges]
  omega

theorem solid_of_isDigit {c : Char} (h : isDigit c = true) : Solid c := by
  have hrange : '0' ≤ c ∧ c ≤ '9' := by
    by_contra hother
    rw [isDigit, digit?, if_neg hother] at h
    cases h
  have hlow : 48 ≤ c.toNat := hrange.1
  have hhigh : c.toNat ≤ 57 := hrange.2
  refine solid_of_visible ⟨by omega, by omega, ?_⟩
  rintro rfl
  exact absurd hlow (by decide)

theorem solid_of_mem_takeWhile {cs : List Char} {c : Char} (h : c ∈ cs.takeWhile isDigit) :
    Solid c :=
  solid_of_isDigit (List.mem_takeWhile_imp h)

theorem solid_of_mem_toString {n : ℕ} {c : Char} (h : c ∈ (toString n).toList) : Solid c :=
  solid_of_isDigit (isDigit_of_charIsDigit (isDigit_of_mem_toString h))

/-- An exponent is a letter, an optional sign and digits. -/
theorem solid_of_exponent {mark : Char} {rest digits : List Char} {negative : Bool}
    (hmark : mark = 'e' ∨ mark = 'E')
    (hsign : (match rest with
      | '-' :: ds => (true, ds)
      | '+' :: ds => (false, ds)
      | ds => (false, ds)) = (negative, digits))
    (hdigits : ∀ c ∈ digits, isDigit c = true) : ∀ c ∈ mark :: rest, Solid c := by
  have hmark : Solid mark := by
    rcases hmark with rfl | rfl <;> exact solid_of_visible (by decide)
  have hdigits : ∀ c ∈ digits, Solid c := fun c hc => solid_of_isDigit (hdigits c hc)
  refine List.forall_mem_cons.mpr ⟨hmark, ?_⟩
  split at hsign <;> cases hsign
  · exact List.forall_mem_cons.mpr ⟨solid_of_visible (by decide), hdigits⟩
  · exact List.forall_mem_cons.mpr ⟨solid_of_visible (by decide), hdigits⟩
  · exact hdigits

/-- A decimal is digits, a point and digits, and an exponent. -/
theorem solid_of_splitReal? {cs : List Char} {parts : List Char × List Char × Int}
    (h : splitReal? cs = some parts) : ∀ c ∈ cs, Solid c := by
  unfold splitReal? at h
  extract_lets whole afterWhole at h
  have hcut : cs = whole ++ afterWhole := List.takeWhile_append_dropWhile.symm
  have hwhole : ∀ c ∈ whole, Solid c := fun c => solid_of_mem_takeWhile
  clear_value whole afterWhole
  subst hcut
  split at h
  rename_i places afterPlaces hplaces
  split at h
  · cases h
  have hafter : ∀ c ∈ afterPlaces, Solid c := by
    split at h
    · simp
    · split at h
      · rename_i mark rest hmark
        split at h
        rename_i negative digits hsign
        split at h
        · cases h
        · rename_i hgood
          simp only [Bool.or_eq_true, Bool.not_eq_true', not_or, Bool.not_eq_false,
            List.all_eq_true] at hgood
          exact solid_of_exponent hmark hsign hgood.2
      · cases h
  refine List.forall_mem_append.mpr ⟨hwhole, ?_⟩
  split at hplaces
  · rename_i rest
    obtain ⟨-, rfl⟩ := Prod.mk.inj hplaces
    rw [← List.takeWhile_append_dropWhile (p := isDigit) (l := rest)]
    refine List.forall_mem_cons.mpr ⟨solid_of_visible (by decide), ?_⟩
    exact List.forall_mem_append.mpr ⟨fun c => solid_of_mem_takeWhile, hafter⟩
  · obtain ⟨-, rfl⟩ := Prod.mk.inj hplaces
    exact hafter

/-- The case of blanks and commas cannot be changed. -/
theorem toLower_eq_of_not_solid {c : Char} (h : ¬ Solid c) : c.toLower = c := by
  unfold Char.toLower
  split
  · rename_i hupper
    have hlow : 65 ≤ c.toNat := hupper.1
    have hhigh : c.toNat ≤ 90 := hupper.2
    refine absurd (solid_of_visible ⟨by omega, by omega, ?_⟩) h
    rintro rfl
    exact absurd hlow (by decide)
  · rfl

theorem solid_of_name {cs : List Char} (name : List Char)
    (hname : ∀ c ∈ name, 0x21 ≤ c.toNat ∧ c.toNat ≤ 0x7E ∧ c ≠ ',')
    (h : String.ofList (cs.map Char.toLower) = String.ofList name) : ∀ c ∈ cs, Solid c := by
  intro c hc
  by_contra hsolid
  have hmem : c.toLower ∈ name := by
    rw [← String.ofList_injective h]
    exact List.mem_map_of_mem hc
  rw [toLower_eq_of_not_solid hsolid] at hmem
  exact hsolid (solid_of_visible (hname c hmem))

theorem solid_of_readUnsigned {cs : List Char} {x : Float} (h : readUnsigned cs = .ok x) :
    ∀ c ∈ cs, Solid c := by
  unfold readUnsigned at h
  split at h
  · exact solid_of_splitReal? ‹_›
  · split at h
    · exact solid_of_name ['i', 'n', 'f'] (by simp) ‹_›
    · exact solid_of_name ['i', 'n', 'f', 'i', 'n', 'i', 't', 'y'] (by simp) ‹_›
    · exact solid_of_name ['n', 'a', 'n'] (by simp) ‹_›
    · cases h

theorem solid_of_readReal {cs : List Char} {x : Float} (h : readReal cs = .ok x) :
    ∀ c ∈ cs, Solid c := by
  unfold readReal at h
  split at h
  · cases h
  · obtain ⟨y, hread, -⟩ := Except.map_eq_ok_iff.mp h
    exact List.forall_mem_cons.mpr ⟨solid_of_visible (by decide), solid_of_readUnsigned hread⟩
  · exact List.forall_mem_cons.mpr ⟨solid_of_visible (by decide), solid_of_readUnsigned h⟩
  · exact solid_of_readUnsigned h

end GrowthCurve.Decimal
