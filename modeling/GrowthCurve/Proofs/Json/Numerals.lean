import Mathlib
import GrowthCurve.Proofs.Decimal.Numerals
import GrowthCurve.Proofs.Decimal.Shortest
import GrowthCurve.Proofs.Json.Grammar

/-!
# Numbers as they are written

Every number that is written follows the grammar. A real has places or an
exponent, so that it is never taken for a whole number.
-/

namespace GrowthCurve.Json

open Decimal (Digits)

/-! ## Digits -/

theorem digits_append {ds es : List Char} (h : IsDigits ds)
    (hes : ∀ c ∈ es, Decimal.isDigit c = true) : IsDigits (ds ++ es) := by
  constructor
  · simp [h.ne_nil]
  · exact List.forall_mem_append.mpr ⟨h.digits, hes⟩

theorem isDigits_toString (n : ℕ) : IsDigits (toString n).toList := by
  constructor
  · exact Decimal.toList_toString_ne_nil n
  · intro c hc
    exact Decimal.isDigit_of_charIsDigit (Decimal.isDigit_of_mem_toString hc)

/-- No digits of a number start with zero but those of zero itself. -/
theorem head?_toString {n : ℕ} (h : 0 < n) : (toString n).toList.head? ≠ some '0' := by
  rw [Nat.toString_eq_ofList_toDigits, String.toList_ofList]
  induction n using Nat.strong_induction_on with
  | _ n ih =>
      by_cases hsmall : n < 10
      · rw [Nat.toDigits_of_lt_base hsmall]
        interval_cases n <;> decide
      · have hhead := ih (n / 10) (by omega) (by omega)
        rw [Nat.toDigits_of_base_le (by decide) (by omega),
          List.head?_append_of_ne_nil _ Nat.toDigits_ne_nil]
        exact hhead

theorem isWhole_toString (n : ℕ) : IsWhole (toString n).toList := by
  refine ⟨isDigits_toString n, ?_⟩
  intro hzero
  rcases Nat.eq_zero_or_pos n with rfl | hpos
  · rfl
  · exact absurd hzero (head?_toString hpos)

/-! ## Whole numbers -/

/-- The parts of a whole number. -/
def wholeParts (n : Int) : NumberParts :=
  ⟨n < 0, (toString n.natAbs).toList, none, none⟩

theorem numberText_integer (n : Int) : NumberText (wholeParts n) (toString n).toList := by
  cases n with
  | ofNat n =>
      have hsign : decide (Int.ofNat n < 0) = false := by simp
      have htext := NumberText.positive (isWhole_toString n) .none .none
      rw [List.append_nil, List.append_nil] at htext
      unfold wholeParts
      rw [hsign]
      exact htext
  | negSucc n =>
      have hsign : decide (Int.negSucc n < 0) = true := by simp
      have htext := NumberText.negative (isWhole_toString (n + 1)) .none .none
      have hminus : (toString (Int.negSucc n)).toList = '-' :: (toString (n + 1)).toList := by
        show ("-" ++ toString (n + 1)).toList = _
        simp
      rw [List.append_nil, List.append_nil] at htext
      unfold wholeParts
      rw [hsign, hminus]
      exact htext

theorem document_wholeParts {n : ℕ} (h : n < 2 ^ 64) :
    (wholeParts n).document = .integer n := by
  have hvalue : Decimal.natOfDigits (toString (n : Int).natAbs).toList = n :=
    Decimal.natOfDigits_toString n
  have hsign : decide ((n : Int) < 0) = false := by simp
  have hinteger : (wholeParts n).integer? = some (n : Int) := by
    simp only [wholeParts, NumberParts.integer?, hvalue, hsign]
    exact if_pos h
  unfold NumberParts.document
  rw [hinteger]

/-! ## Reals -/

/-- The text of a real that is not negative. -/
structure IsRealText (p : NumberParts) (cs : List Char) : Prop where
  number : NumberText p cs
  positive : p.negative = false
  not_whole : p.places.isSome ∨ p.exponent.isSome

theorem isRealText_places {whole ds : List Char} (hwhole : IsWhole whole) (hds : IsDigits ds) :
    ∃ p, IsRealText p (whole ++ '.' :: ds) := by
  have htext := NumberText.positive hwhole (.some hds) .none
  rw [List.append_nil] at htext
  exact ⟨_, htext, rfl, .inl rfl⟩

theorem isWhole_positional {d : Digits} (hd : d.Proper) (h : 0 ≤ d.exponent) :
    IsWhole d.positional.toList := by
  have htext : d.positional.toList =
      (toString d.digits).toList ++ List.replicate d.exponent.toNat '0' := by
    unfold Digits.positional
    rw [if_pos h, String.toList_append, String.toList_ofList]
  rw [htext]
  constructor
  · apply digits_append (isDigits_toString d.digits)
    intro c hc
    rw [List.eq_of_mem_replicate hc]
    decide
  · intro hzero
    rw [List.head?_append_of_ne_nil _ (isDigits_toString d.digits).ne_nil] at hzero
    rcases Nat.eq_zero_or_pos d.digits with hdigits | hpos
    · rw [hd hdigits, hdigits]
      rfl
    · exact absurd hzero (head?_toString hpos)

/-- Digits with a point among them, none of them needless. -/
theorem isRealText_cut {ds : List Char} {whole : ℕ} (hdigits : ∀ c ∈ ds, Decimal.isDigit c = true)
    (hwhole : 0 < whole) (hplaces : whole < ds.length)
    (hzero : ds.head? = some '0' → whole = 1) :
    ∃ p, IsRealText p (ds.take whole ++ '.' :: ds.drop whole) := by
  apply isRealText_places
  · constructor
    · constructor
      · apply List.ne_nil_of_length_pos
        rw [List.length_take]
        omega
      · exact fun c hc => hdigits c (List.mem_of_mem_take hc)
    · intro hhead
      rw [List.head?_take, if_neg hwhole.ne'] at hhead
      rw [List.length_take, hzero hhead]
      omega
  · constructor
    · apply List.ne_nil_of_length_pos
      rw [List.length_drop]
      omega
    · exact fun c hc => hdigits c (List.mem_of_mem_drop hc)

/-- Zeros stand in for the digits that are missing up to the point. -/
theorem isRealText_positional {d : Digits} (hd : 0 < d.digits) (h : d.exponent < 0) :
    ∃ p, IsRealText p d.positional.toList := by
  have htext := isDigits_toString d.digits
  have hlength : (toString d.digits).length = (toString d.digits).toList.length :=
    String.length_toList.symm
  unfold Digits.positional
  rw [if_neg (by omega), String.toList_ofList]
  apply isRealText_cut
  · refine List.forall_mem_append.mpr ⟨?_, htext.digits⟩
    intro c hc
    rw [List.eq_of_mem_replicate hc]
    decide
  · rw [List.length_append, List.length_replicate]
    omega
  · rw [List.length_append, List.length_replicate]
    omega
  · intro hzero
    by_cases hmissing : (toString d.digits).length ≤ (-d.exponent).toNat
    · rw [List.length_append, List.length_replicate]
      omega
    · have hnone : (-d.exponent).toNat + 1 - (toString d.digits).length = 0 := by omega
      rw [hnone] at hzero
      exact absurd hzero (head?_toString hd)

theorem afterFirst_toString (n : ℕ) :
    ∃ whole places ps, IsWhole whole ∧ PlacesText places ps ∧
      (Decimal.afterFirst (toString n)).toList = whole ++ ps := by
  have htext := isDigits_toString n
  obtain ⟨c, rest, hcs, hc⟩ := htext.exists_cons
  have hfirst : IsWhole [c] := ⟨⟨by simp, by simpa using hc⟩, by simp⟩
  unfold Decimal.afterFirst
  rw [hcs]
  cases rest with
  | nil => exact ⟨[c], _, _, hfirst, .none, by simp⟩
  | cons d rest =>
      have hrest : IsDigits (d :: rest) := by
        refine ⟨by simp, ?_⟩
        intro e he
        exact htext.digits e (hcs ▸ List.mem_cons_of_mem c he)
      exact ⟨[c], _, _, hfirst, .some hrest, by simp⟩

theorem isRealText_writeMagnitude {d : Digits} (hd : d.Proper) :
    ∃ p, IsRealText p (writeMagnitude d).toList := by
  unfold writeMagnitude
  extract_lets lead
  split
  case isTrue =>
    split
    case isTrue hexponent =>
      have hzero : IsDigits ['0'] := ⟨by simp, by simp; decide⟩
      have htext := isRealText_places (isWhole_positional hd hexponent) hzero
      simpa using htext
    case isFalse hexponent =>
      have hpos : 0 < d.digits := by
        by_contra hzero
        have hnone := hd (by omega)
        omega
      exact isRealText_positional hpos (by omega)
  case isFalse =>
    obtain ⟨whole, places, ps, hwhole, hplaces, htext⟩ := afterFirst_toString d.digits
    have hpower := isDigits_toString lead.natAbs
    rw [String.toList_append, String.toList_append, htext]
    split
    case isTrue =>
      have hnumber := NumberText.positive hwhole hplaces (.minus (.inl rfl) hpower)
      exact ⟨_, by simpa using hnumber, rfl, .inr rfl⟩
    case isFalse =>
      have hnumber := NumberText.positive hwhole hplaces (.plus (.inl rfl) hpower)
      exact ⟨_, by simpa using hnumber, rfl, .inr rfl⟩

theorem NumberText.negate {p : NumberParts} {cs : List Char} (h : NumberText p cs)
    (hp : p.negative = false) : NumberText { p with negative := true } ('-' :: cs) := by
  cases h with
  | positive hwhole hplaces hexponent => exact .negative hwhole hplaces hexponent
  | negative => cases hp

theorem integer?_eq_none {p : NumberParts} (h : p.places.isSome ∨ p.exponent.isSome) :
    p.integer? = none := by
  unfold NumberParts.integer?
  apply if_neg
  rcases h with h | h
  · simp [Option.isNone_eq_false_iff.mpr h]
  · simp [Option.isNone_eq_false_iff.mpr h]

/-- A finite real is written as a number that is not taken for a whole one. -/
theorem numberText_writeReal {x : Float} {b : Binary} (h : Binary.ofFloat? x = some b) :
    ∃ p, NumberText p (writeReal x).toList ∧ p.integer? = none := by
  obtain ⟨p, hp⟩ := isRealText_writeMagnitude
    (Decimal.shortest_proper .toEven b.mantissa b.exponent)
  unfold writeReal
  rw [h]
  dsimp only
  unfold Decimal.signed
  split
  case isTrue =>
    have htext := hp.number.negate hp.positive
    exact ⟨{ p with negative := true }, by simpa using htext, integer?_eq_none hp.not_whole⟩
  case isFalse => exact ⟨p, hp.number, integer?_eq_none hp.not_whole⟩

theorem writeReal_of_not_finite {x : Float} (h : Binary.ofFloat? x = none) :
    writeReal x = "null" := by
  unfold writeReal
  rw [h]

end GrowthCurve.Json
