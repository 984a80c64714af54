import Mathlib
import GrowthCurve.Proofs.Text.Lines

/-!
# Blanks around a text

Blanks at either end of a text are trimmed, and the end of a line leaves nothing
of it but blanks to be trimmed.
-/

namespace GrowthCurve.Text

variable {cs before after : List Char}

/-- Blanks that do not end a line. -/
def Padding (cs : List Char) : Prop :=
  ∀ c ∈ cs, isBlank c = true ∧ c ≠ '\n'

instance : DecidablePred Padding := fun cs =>
  List.decidableBAll (fun c => isBlank c = true ∧ c ≠ '\n') cs

/-- A text with blanks around it. -/
inductive Padded (core : List Char) : List Char → Prop where
  | intro (start stop : List Char) (hstart : Padding start) (hstop : Padding stop) :
      Padded core (start ++ core ++ stop)

/-- The two ways to end a line. -/
inductive LineEnd : List Char → Prop where
  | feed : LineEnd ['\n']
  | returnFeed : LineEnd ['\r', '\n']

theorem Padding.not_mem_of_not_blank {c : Char} (h : Padding cs) (hc : isBlank c = false) :
    c ∉ cs := by
  intro hmem
  rw [(h c hmem).1] at hc
  cases hc

/-! ## Trimming -/

theorem trim_blank_append (cs : List Char) (hbefore : ∀ c ∈ before, isBlank c = true) :
    trim (before ++ cs) = trim cs := by
  unfold trim
  rw [List.dropWhile_append_of_pos hbefore]

theorem trim_append_blank (cs : List Char) (hafter : ∀ c ∈ after, isBlank c = true) :
    trim (cs ++ after) = trim cs := by
  have hreverse : ∀ c ∈ after.reverse, isBlank c = true := by
    intro c hc
    exact hafter c (List.mem_reverse.mp hc)
  unfold trim
  rw [List.dropWhile_append]
  split_ifs with hempty
  · rw [List.isEmpty_iff.mp hempty, List.dropWhile_eq_nil_iff.mpr hafter]
  · rw [List.reverse_append, List.dropWhile_append_of_pos hreverse]

/-- A text without blanks stays as it is. -/
theorem trim_of_no_blank (h : ∀ c ∈ cs, isBlank c = false) : trim cs = cs := by
  have hdrop : ∀ ds : List Char, (∀ c ∈ ds, isBlank c = false) → ds.dropWhile isBlank = ds := by
    intro ds hds
    cases ds with
    | nil => rfl
    | cons d ds => exact List.dropWhile_cons_of_neg (by simp [hds d])
  unfold trim
  rw [hdrop cs h, hdrop cs.reverse (fun c hc => h c (List.mem_reverse.mp hc)),
    List.reverse_reverse]

theorem Padded.trim_eq {core : List Char} (h : Padded core cs)
    (hcore : ∀ c ∈ core, isBlank c = false) : trim cs = core := by
  cases h with
  | intro start stop hstart hstop =>
      rw [trim_append_blank _ fun c hc => (hstop c hc).1,
        trim_blank_append _ fun c hc => (hstart c hc).1, trim_of_no_blank hcore]

theorem Padded.not_mem {core : List Char} {c : Char} (h : Padded core cs) (hcore : c ∉ core)
    (hc : c = '\n' ∨ isBlank c = false) : c ∉ cs := by
  have hpadding : ∀ ds, Padding ds → c ∉ ds := by
    intro ds hds
    rcases hc with rfl | hc
    · exact fun hmem => (hds _ hmem).2 rfl
    · exact hds.not_mem_of_not_blank hc
  cases h with
  | intro start stop hstart hstop =>
      simp only [List.mem_append, not_or]
      exact ⟨⟨hpadding _ hstart, hcore⟩, hpadding _ hstop⟩

/-! ## Pieces of a text -/

variable {separator : Char}

theorem splitAt_append_cons (cs rest : List Char) :
    splitAt separator (cs ++ separator :: rest) =
      splitAt separator cs ++ splitAt separator rest := by
  simp only [splitAt_eq_splitOn, List.splitOn_append_cons_self]

theorem splitAt_of_not_mem (h : separator ∉ cs) : splitAt separator cs = [cs] := by
  rw [splitAt_eq_splitOn, List.splitOn_eq_singleton h]

theorem map_trim_splitAt_blank_append (cs : List Char)
    (hbefore : ∀ c ∈ before, isBlank c = true) (hseparator : separator ∉ before) :
    (splitAt separator (before ++ cs)).map trim = (splitAt separator cs).map trim := by
  have hfree : ∀ ds, separator ∉ ds → separator ∉ before ++ ds := by
    intro ds hds hmem
    exact (List.mem_append.mp hmem).elim hseparator hds
  by_cases hmem : separator ∈ cs
  · obtain ⟨first, rest, rfl, hfirst⟩ := List.eq_append_cons_of_mem hmem
    rw [← List.append_assoc, splitAt_append_cons, splitAt_append_cons,
      splitAt_of_not_mem (hfree first hfirst), splitAt_of_not_mem hfirst]
    simp only [List.map_append, List.map_singleton, trim_blank_append _ hbefore]
  · rw [splitAt_of_not_mem (hfree cs hmem), splitAt_of_not_mem hmem, List.map_singleton,
      List.map_singleton, trim_blank_append _ hbefore]

theorem exists_last_piece (h : separator ∈ cs) :
    ∃ first last, cs = first ++ separator :: last ∧ separator ∉ last := by
  obtain ⟨last, first, hcut, hlast⟩ := List.eq_append_cons_of_mem (List.mem_reverse.mpr h)
  refine ⟨first.reverse, last.reverse, ?_, fun hmem => hlast (List.mem_reverse.mp hmem)⟩
  rw [← List.reverse_reverse cs, hcut]
  simp

theorem map_trim_splitAt_append_blank (cs : List Char)
    (hafter : ∀ c ∈ after, isBlank c = true) (hseparator : separator ∉ after) :
    (splitAt separator (cs ++ after)).map trim = (splitAt separator cs).map trim := by
  have hfree : ∀ ds, separator ∉ ds → separator ∉ ds ++ after := by
    intro ds hds hmem
    exact (List.mem_append.mp hmem).elim hds hseparator
  by_cases hmem : separator ∈ cs
  · obtain ⟨first, last, rfl, hlast⟩ := exists_last_piece hmem
    rw [List.append_assoc, List.cons_append, splitAt_append_cons, splitAt_append_cons,
      splitAt_of_not_mem (hfree last hlast), splitAt_of_not_mem hlast]
    simp only [List.map_append, List.map_singleton, trim_append_blank _ hafter]
  · rw [splitAt_of_not_mem (hfree cs hmem), splitAt_of_not_mem hmem, List.map_singleton,
      List.map_singleton, trim_append_blank _ hafter]

theorem exists_blanks_around (cs : List Char) : ∃ before after, cs = before ++ trim cs ++ after ∧
    (∀ c ∈ before, isBlank c = true) ∧ ∀ c ∈ after, isBlank c = true := by
  refine ⟨cs.takeWhile isBlank, (cs.dropWhile isBlank).rtakeWhile isBlank, ?_, ?_, ?_⟩
  · have htrim : trim cs = (cs.dropWhile isBlank).rdropWhile isBlank := rfl
    rw [htrim, List.append_assoc, List.rdropWhile_append_rtakeWhile,
      List.takeWhile_append_dropWhile]
  · exact fun c => List.mem_takeWhile_imp
  · exact fun c => List.mem_rtakeWhile_imp

/-- Trimming a text before it is cut changes no trimmed piece. -/
theorem map_trim_splitAt_trim (hseparator : isBlank separator = false) (cs : List Char) :
    (splitAt separator (trim cs)).map trim = (splitAt separator cs).map trim := by
  have hfree : ∀ ds : List Char, (∀ c ∈ ds, isBlank c = true) → separator ∉ ds := by
    intro ds hds hmem
    rw [hds separator hmem] at hseparator
    cases hseparator
  obtain ⟨before, after, hcs, hbefore, hafter⟩ := exists_blanks_around cs
  conv_rhs => rw [hcs, map_trim_splitAt_append_blank _ hafter (hfree _ hafter),
    map_trim_splitAt_blank_append _ hbefore (hfree _ hbefore)]

end GrowthCurve.Text
