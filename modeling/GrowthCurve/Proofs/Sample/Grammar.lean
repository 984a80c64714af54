import Mathlib
import GrowthCurve.Error
import GrowthCurve.Proofs.Text.Lines
import GrowthCurve.Proofs.Sample.Records
import GrowthCurve.Proofs.Sample.Parallel

/-!
# The grammar of a result file

A result file is read exactly if the lines up to the last one that is not blank
are records of one width. If not, the first line that is no record, or is not
as wide as the first line, is blamed.
-/

namespace GrowthCurve.Series

open Record

/-- The first `n` of these lines are those up to the last one that is not blank. -/
structure Extent (lines : List (List Char)) (n : ℕ) : Prop where
  le_length : n ≤ lines.length
  blank_after : ∀ line ∈ lines.drop n, line.all Text.isBlank
  last_not_blank : ∀ line, (lines.take n).getLast? = some line → ¬ line.all Text.isBlank

/-- The trimmed fields of the line with this index. -/
def fieldsAt (lines : List (List Char)) (i : ℕ) : List (List Char) :=
  fields (lines.getD i [])

/-- The line is no record, or it has not as many fields as the first one. -/
def Breaks (lines : List (List Char)) (i : ℕ) : Prop :=
  (∀ r, ¬ IsRecord (fieldsAt lines i) r) ∨ (fieldsAt lines i).length ≠ (fieldsAt lines 0).length

theorem content_extent (text : List Char) : ∃ n, Extent (Text.lines text) n ∧
    content text = (Text.lines text).take n := by
  have hcut := List.rdropWhile_append_rtakeWhile (p := fun line => line.all Text.isBlank)
    (l := Text.lines text)
  have hcontent : content text = (Text.lines text).rdropWhile fun line => line.all Text.isBlank :=
    rfl
  rw [← hcontent] at hcut
  have htake : (Text.lines text).take (content text).length = content text := by
    rw [← hcut, List.take_left']
    rfl
  refine ⟨(content text).length, ⟨?_, ?_, ?_⟩, htake.symm⟩
  · rw [← hcut, List.length_append]
    exact Nat.le_add_right _ _
  · intro line hline
    rw [← hcut, List.drop_left'] at hline
    · exact List.mem_rtakeWhile_imp (p := fun line : List Char => line.all Text.isBlank) hline
    · rfl
  · intro line hlast
    rw [htake] at hlast
    obtain ⟨hne, rfl⟩ := List.mem_getLast?_eq_getLast hlast
    exact List.rdropWhile_last_not _ _ hne

/-- The first line decides about the width, if there is one. -/
theorem readRecords_take (lines : List (List Char)) (n : ℕ) :
    readRecords 1 none (lines.take n) =
      readRecords 1 (some (fieldsAt lines 0).length) (lines.take n) := by
  cases lines with
  | nil => simp [readRecords]
  | cons line rest =>
      cases n with
      | zero => simp [readRecords]
      | succ n => exact readRecords_none

variable {lines : List (List Char)} {n i : ℕ} {line : List Char}

theorem getD_of_take (h : (lines.take n)[i]? = some line) : i < n ∧ lines.getD i [] = line := by
  rw [List.getElem?_take] at h
  split at h
  · exact ⟨‹_›, by rw [List.getD_eq_getElem?_getD, h, Option.getD_some]⟩
  · cases h

theorem not_breaks_of_fits {r : Record}
    (h : Fits (fieldsAt lines 0).length (lines.getD i []) r) : ¬ Breaks lines i := by
  rintro (hnone | hwidth)
  · exact hnone r h.1
  · exact hwidth h.2

theorem breaks_of_blamed {cause : Record.Malformed}
    (h : Blamed (fieldsAt lines 0).length (lines.getD i []) cause) : Breaks lines i := by
  cases h with
  | unreadable hread => exact Or.inl (read_eq_error_iff.mp ⟨cause, hread⟩)
  | other_width _ hwidth => exact Or.inr hwidth

/-- A file is read if no line breaks the grammar. -/
theorem not_breaks_of_readRecords {records : List Record} (hn : n ≤ lines.length)
    (h : readRecords 1 none (lines.take n) = .ok records) (hi : i < n) : ¬ Breaks lines i := by
  rw [readRecords_take] at h
  have hfits := forall_fits_of_readRecords h
  have hline : i < (lines.take n).length := by
    rw [List.length_take, min_eq_left hn]
    exact hi
  have hget := (getD_of_take (List.getElem?_eq_getElem hline)).2
  have hfit := hfits.get hline (hfits.length_eq ▸ hline)
  apply not_breaks_of_fits
  rw [hget]
  exact hfit

/-- The first line that breaks the grammar is blamed. -/
theorem exists_first_break {e : Malformed}
    (h : readRecords 1 none (lines.take n) = .error e) :
    ∃ i < n, e.line = i + 1 ∧ Blamed (fieldsAt lines 0).length (lines.getD i []) e.cause ∧
      ∀ j < i, ¬ Breaks lines j := by
  rw [readRecords_take] at h
  obtain ⟨before, line, after, hcut, hbefore, hnumber, hblamed⟩ := exists_blamed_of_readRecords h
  have hline : (lines.take n)[before.length]? = some line := by simp [hcut]
  obtain ⟨hi, hget⟩ := getD_of_take hline
  refine ⟨before.length, hi, by rw [hnumber, add_comm], hget ▸ hblamed, ?_⟩
  intro j hj
  have hother : (lines.take n)[j]? = some before[j] := by
    rw [hcut, List.getElem?_append_left hj, List.getElem?_eq_getElem hj]
  obtain ⟨r, hfits⟩ := hbefore _ (List.getElem_mem hj)
  rw [← (getD_of_take hother).2] at hfits
  exact not_breaks_of_fits hfits

/-- The columns of a series hold the records, where the first derivative is zero. -/
structure Holds (s : Series) (records : List Record) : Prop where
  sizes : s.inputSizes = records.map Record.inputSize
  times : s.times = records.map Record.elapsed
  no_derivatives : s.derivatives = none ↔ records = [] ∨ ∃ r ∈ records, r.derivative = none
  derivatives : ∀ ds, s.derivatives = some ds →
    ds.head? = some 0 ∧ ds.tail.map some = records.tail.map Record.derivative

theorem holds_ofRecords (source : Path) (records : List Record) :
    Holds (ofRecords source records) records :=
  ⟨rfl, rfl, derivativeColumn_eq_none_iff, fun _ => of_derivativeColumn_eq_some⟩

/-- **The grammar of result files**: a file is read exactly if every line up to its
last line that is not blank is a record of the width of the first one. The series
then holds these records, and otherwise the first line that breaks the grammar is
blamed, for the first thing that is wrong with it. Blank lines are allowed exactly
after the extent. -/
theorem read_accepts_grammar (source : Path) (text : String) :
    ∃ lines n, Text.HasLines text.toList lines ∧ Extent lines n ∧
      ((∃ s, (read source text).mapError (Error.ofMalformed source) = .ok s) ↔
        ∀ i < n, ¬ Breaks lines i) ∧
      (∀ s, (read source text).mapError (Error.ofMalformed source) = .ok s →
        s.source = source ∧ ∃ records, records.length = n ∧
          List.Forall₂ (fun line r => IsRecord (fields line) r) (lines.take n) records ∧
          Holds s records) ∧
      (∀ e, (read source text).mapError (Error.ofMalformed source) = .error e →
        ∃ i < n, Breaks lines i ∧ (∀ j < i, ¬ Breaks lines j) ∧
          ∃ cause, Blamed (fieldsAt lines 0).length (lines.getD i []) cause ∧
            e = .malformedRecord source (i + 1) cause.message) ∧
      ∀ i < n, (lines.getD i []).all Text.isBlank → Breaks lines i := by
  obtain ⟨n, hextent, hcontent⟩ := content_extent text.toList
  refine ⟨Text.lines text.toList, n, Text.hasLines_lines _, hextent, ?_⟩
  have hblank : ∀ i < n, ((Text.lines text.toList).getD i []).all Text.isBlank →
      Breaks (Text.lines text.toList) i := by
    intro i _ hi
    exact Or.inl (not_isRecord_of_blank hi)
  unfold read
  rw [hcontent]
  cases hread : readRecords 1 none ((Text.lines text.toList).take n) with
  | ok records =>
      have hfits := hread
      rw [readRecords_take] at hfits
      refine ⟨⟨?_, ?_⟩, ?_, ?_, hblank⟩
      · intro _ i hi
        exact not_breaks_of_readRecords hextent.le_length hread hi
      · intro _
        exact ⟨ofRecords source records, rfl⟩
      · intro s hs
        obtain rfl : ofRecords source records = s := Except.ok.inj hs
        have hfit := forall_fits_of_readRecords hfits
        refine ⟨rfl, records, ?_, hfit.imp fun _ _ h => h.1, holds_ofRecords source records⟩
        rw [← hfit.length_eq, List.length_take, min_eq_left hextent.le_length]
      · intro e he
        cases he
  | error e =>
      obtain ⟨i, hi, hline, hblamed, hfirst⟩ := exists_first_break hread
      refine ⟨⟨?_, ?_⟩, ?_, ?_, hblank⟩
      · rintro ⟨s, hs⟩
        cases hs
      · intro hgood
        exact absurd (breaks_of_blamed hblamed) (hgood i hi)
      · intro s hs
        cases hs
      · intro reported hreported
        obtain rfl := Except.error.inj hreported
        refine ⟨i, hi, breaks_of_blamed hblamed, hfirst, e.cause, hblamed, ?_⟩
        rw [Error.ofMalformed, hline]

end GrowthCurve.Series
