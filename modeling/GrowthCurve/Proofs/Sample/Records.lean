import Mathlib
import GrowthCurve.Sample.Series
import GrowthCurve.Proofs.Outcome

/-!
# What a record is

The grammar of one line, with the readers of numbers as its leaves, and of
lines that are equally wide.
-/

namespace GrowthCurve

/-! ## Numbers within their bound -/

theorem Decimal.readDigits_le {limit value n : ℕ} {overflow : Decimal.ReadError}
    {cs : List Char} (hvalue : value ≤ limit)
    (h : Decimal.readDigits limit overflow value cs = .ok n) : n ≤ limit := by
  induction cs generalizing value with
  | nil =>
      obtain rfl := Except.ok.inj h
      exact hvalue
  | cons c rest ih =>
      unfold Decimal.readDigits at h
      split at h
      · cases h
      · split at h
        · exact ih ‹_› h
        · cases h

theorem Decimal.readNatural_le {limit n : ℕ} {cs : List Char}
    (h : Decimal.readNatural limit cs = .ok n) : n ≤ limit := by
  unfold Decimal.readNatural at h
  split at h
  · cases h
  · cases h
  · exact Decimal.readDigits_le (Nat.zero_le _) h
  · exact Decimal.readDigits_le (Nat.zero_le _) h

/-! ## One line -/

namespace Record

/-- The trimmed fields of a line that form a record. -/
inductive IsRecord : List (List Char) → Record → Prop where
  | pair {size time : List Char} {n : UInt64} {t : Float}
      (hsize : Decimal.readNatural (UInt64.size - 1) size = .ok n.toNat)
      (htime : Decimal.readReal time = .ok t) : IsRecord [size, time] ⟨n, t, none⟩
  | triple {size time derivative : List Char} {n : UInt64} {t d : Float}
      (hsize : Decimal.readNatural (UInt64.size - 1) size = .ok n.toNat)
      (htime : Decimal.readReal time = .ok t)
      (hderivative : Decimal.readReal derivative = .ok d) :
      IsRecord [size, time, derivative] ⟨n, t, some d⟩

theorem IsRecord.width_eq {line : List (List Char)} {r : Record} (h : IsRecord line r) :
    r.width = line.length := by
  cases h <;> rfl

theorem readSize_eq_ok_iff {field : List Char} {n : UInt64} :
    readSize field = .ok n ↔ Decimal.readNatural (UInt64.size - 1) field = .ok n.toNat := by
  unfold readSize
  cases hread : Decimal.readNatural (UInt64.size - 1) field with
  | error e => simp
  | ok m =>
      have hbound : m < UInt64.size :=
        Nat.lt_of_le_of_lt (Decimal.readNatural_le hread) (by norm_num)
      simp only [Except.ok.injEq]
      constructor
      · rintro rfl
        exact (UInt64.toNat_ofNat_of_lt' hbound).symm
      · rintro rfl
        exact UInt64.ofNat_toNat

theorem readReal_eq_ok_iff {fault : String → Decimal.ReadError → Malformed} {field : List Char}
    {x : Float} : readReal fault field = .ok x ↔ Decimal.readReal field = .ok x := by
  unfold readReal
  cases Decimal.readReal field <;> simp

theorem read_eq_ok_iff {line : List Char} {r : Record} :
    read line = .ok r ↔ IsRecord (fields line) r := by
  unfold read
  generalize fields line = parts
  constructor
  · intro h
    split at h
    · simp only [Except.bind_eq_ok_iff, readSize_eq_ok_iff, readReal_eq_ok_iff] at h
      obtain ⟨n, hsize, t, htime, hr⟩ := h
      obtain rfl := Except.ok.inj hr
      exact IsRecord.pair hsize htime
    · simp only [Except.bind_eq_ok_iff, readSize_eq_ok_iff, readReal_eq_ok_iff] at h
      obtain ⟨n, hsize, t, htime, d, hderivative, hr⟩ := h
      obtain rfl := Except.ok.inj hr
      exact IsRecord.triple hsize htime hderivative
    · cases h
  · intro h
    cases h with
    | pair hsize htime =>
        dsimp only
        rw [readSize_eq_ok_iff.mpr hsize, readReal_eq_ok_iff.mpr htime]
        rfl
    | triple hsize htime hderivative =>
        dsimp only
        rw [readSize_eq_ok_iff.mpr hsize, readReal_eq_ok_iff.mpr htime,
          readReal_eq_ok_iff.mpr hderivative]
        rfl

theorem read_eq_error_iff {line : List Char} :
    (∃ cause, read line = .error cause) ↔ ∀ r, ¬ IsRecord (fields line) r := by
  simp only [← read_eq_ok_iff]
  cases read line <;> simp

/-- A line of blanks has one field, so it is no record. -/
theorem not_isRecord_of_blank {line : List Char} (h : line.all Text.isBlank) (r : Record) :
    ¬ IsRecord (fields line) r := by
  have htrim : Text.trim line = [] := by
    have hdrop : line.dropWhile Text.isBlank = [] :=
      List.dropWhile_eq_nil_iff.mpr (List.all_eq_true.mp h)
    simp [Text.trim, hdrop]
  have hfields : fields line = [[]] := by
    rw [fields, htrim]
    rfl
  rw [hfields]
  intro hrecord
  cases hrecord

/-- A line that is a record of a file with this many fields in a line. -/
def Fits (width : ℕ) (line : List Char) (r : Record) : Prop :=
  IsRecord (fields line) r ∧ (fields line).length = width

/-- What a line of a file with this many fields in a line is blamed for: first
for being no record, and then for being of another width. -/
inductive Blamed (width : ℕ) (line : List Char) : Malformed → Prop where
  | unreadable {cause : Malformed} (hread : read line = .error cause) : Blamed width line cause
  | other_width {r : Record} (hrecord : IsRecord (fields line) r)
      (hwidth : (fields line).length ≠ width) :
      Blamed width line (.otherWidth width (fields line).length)

end Record

/-! ## Equally wide lines -/

namespace Series

open Record

variable {number width : ℕ} {line : List Char} {rest : List (List Char)} {r : Record}

theorem readRecords_of_unreadable {width : Option ℕ} {cause : Record.Malformed}
    (h : Record.read line = .error cause) :
    readRecords number width (line :: rest) = .error ⟨number, cause⟩ := by
  rw [readRecords, h]
  rfl

theorem readRecords_of_other_width (h : Record.read line = .ok r) (hwidth : r.width ≠ width) :
    readRecords number (some width) (line :: rest) =
      .error ⟨number, .otherWidth width r.width⟩ := by
  rw [readRecords, h]
  simp [Except.mapError, bind, Except.bind, hwidth, throw, throwThe, MonadExceptOf.throw]

theorem readRecords_of_fits (h : Record.read line = .ok r) :
    readRecords number (some r.width) (line :: rest) =
      (readRecords (number + 1) (some r.width) rest).map (r :: ·) := by
  rw [readRecords, h]
  cases hrest : readRecords (number + 1) (some r.width) rest <;>
    simp [Except.mapError, bind, Except.bind, hrest, Except.map, pure, Except.pure]

/-- The first line decides how wide all lines have to be. -/
theorem readRecords_none : readRecords number none (line :: rest) =
    readRecords number (some (fields line).length) (line :: rest) := by
  cases hread : Record.read line with
  | error cause => rw [readRecords_of_unreadable hread, readRecords_of_unreadable hread]
  | ok r =>
      rw [← (read_eq_ok_iff.mp hread).width_eq, readRecords, readRecords, hread]
      rfl

/-- What one line does: it is blamed, or it fits and the rest decides. -/
theorem readRecords_cons (number width : ℕ) (line : List Char) (rest : List (List Char)) :
    (∃ cause, Blamed width line cause ∧
      readRecords number (some width) (line :: rest) = .error ⟨number, cause⟩) ∨
    ∃ r, Fits width line r ∧ readRecords number (some width) (line :: rest) =
      (readRecords (number + 1) (some width) rest).map (r :: ·) := by
  cases hread : Record.read line with
  | error cause => exact Or.inl ⟨cause, Blamed.unreadable hread, readRecords_of_unreadable hread⟩
  | ok r =>
      have hrecord := read_eq_ok_iff.mp hread
      have hlength := hrecord.width_eq
      by_cases hwidth : r.width = width
      · subst hwidth
        exact Or.inr ⟨r, ⟨hrecord, hlength.symm⟩, readRecords_of_fits hread⟩
      · have herror : readRecords number (some width) (line :: rest) =
            .error ⟨number, .otherWidth width r.width⟩ := readRecords_of_other_width hread hwidth
        rw [hlength] at hwidth herror
        exact Or.inl ⟨_, Blamed.other_width hrecord hwidth, herror⟩

theorem forall_fits_of_readRecords {lines : List (List Char)} {records : List Record}
    (h : readRecords number (some width) lines = .ok records) :
    List.Forall₂ (Fits width) lines records := by
  induction lines generalizing number records with
  | nil =>
      obtain rfl := Except.ok.inj h
      exact List.Forall₂.nil
  | cons line rest ih =>
      rcases readRecords_cons number width line rest with ⟨cause, -, herror⟩ | ⟨r, hfits, hstep⟩
      · rw [herror] at h
        cases h
      · rw [hstep, Except.map_eq_ok_iff] at h
        obtain ⟨others, hrest, rfl⟩ := h
        exact List.Forall₂.cons hfits (ih hrest)

theorem forall_isRecord_of_readRecords {lines : List (List Char)} {records : List Record}
    (h : readRecords number none lines = .ok records) :
    List.Forall₂ (fun line r => IsRecord (fields line) r) lines records := by
  cases lines with
  | nil =>
      obtain rfl := Except.ok.inj h
      exact List.Forall₂.nil
  | cons line rest =>
      rw [readRecords_none] at h
      exact (forall_fits_of_readRecords h).imp fun _ _ hfits => hfits.1

/-- The error is about the first line that is blamed. -/
theorem exists_blamed_of_readRecords {lines : List (List Char)} {e : Malformed}
    (h : readRecords number (some width) lines = .error e) :
    ∃ before line after, lines = before ++ line :: after ∧
      (∀ other ∈ before, ∃ r, Fits width other r) ∧
      e.line = number + before.length ∧ Blamed width line e.cause := by
  induction lines generalizing number with
  | nil => cases h
  | cons line rest ih =>
      rcases readRecords_cons number width line rest with
        ⟨cause, hblamed, herror⟩ | ⟨r, hfits, hstep⟩
      · rw [herror] at h
        obtain rfl := Except.error.inj h
        exact ⟨[], line, rest, rfl, by simp, rfl, hblamed⟩
      · rw [hstep, Except.map_eq_error_iff] at h
        obtain ⟨before, faulty, after, rfl, hbefore, hnumber, hblamed⟩ := ih h
        refine ⟨line :: before, faulty, after, rfl, ?_, ?_, hblamed⟩
        · intro other hother
          rcases List.mem_cons.mp hother with rfl | hother
          · exact ⟨r, hfits⟩
          · exact hbefore other hother
        · rw [hnumber, List.length_cons]
          omega

end Series

end GrowthCurve
