import Mathlib
import GrowthCurve.Text.Blank

/-!
# Cutting a text

A run of characters of one kind is cut off where another character follows. The
lines of a text as a grammar: a line is free of line feeds, a line feed ends it
together with one carriage return before it, and the last line may lack its
line feed unless it is empty.
-/

namespace GrowthCurve.Text

/-! ## Runs -/

section Runs

variable {p : Char → Bool} {run rest : List Char}

theorem takeWhile_run_append (hrun : ∀ c ∈ run, p c = true)
    (hrest : ∀ c, rest.head? = some c → p c = false) : (run ++ rest).takeWhile p = run := by
  rw [List.takeWhile_append_of_pos hrun]
  cases rest with
  | nil => exact List.append_nil run
  | cons c rest =>
      rw [List.takeWhile_cons_of_neg (by simp [hrest c rfl]), List.append_nil]

theorem dropWhile_run_append (hrun : ∀ c ∈ run, p c = true)
    (hrest : ∀ c, rest.head? = some c → p c = false) : (run ++ rest).dropWhile p = rest := by
  rw [List.dropWhile_append_of_pos hrun]
  cases rest with
  | nil => rfl
  | cons c rest => exact List.dropWhile_cons_of_neg (by simp [hrest c rfl])

end Runs

/-! ## Lines -/

/-- The text consists of these lines. -/
inductive HasLines : List Char → List (List Char) → Prop where
  | empty : HasLines [] []
  | unended {line} (hline : line ≠ []) (hfree : '\n' ∉ line) : HasLines line [line]
  | ended {line rest lines} (hfree : '\n' ∉ line) (hrest : HasLines rest lines) :
      HasLines (line ++ '\n' :: rest) (dropReturn line :: lines)

theorem splitAt_eq_splitOn (separator : Char) (cs : List Char) :
    splitAt separator cs = cs.splitOn separator := by
  induction cs with
  | nil => rfl
  | cons c rest ih =>
      have hstep : splitAt separator (c :: rest) =
          addToPieces separator c (splitAt separator rest) := rfl
      rw [hstep, ih, List.splitOn_cons_eq_if_modifyHead]
      obtain ⟨piece, pieces, hpieces⟩ := List.exists_cons_of_ne_nil
        (List.splitOn_ne_nil separator rest)
      simp [hpieces, addToPieces]

theorem lines_of_free {line : List Char} (hline : line ≠ []) (hfree : '\n' ∉ line) :
    lines line = [line] := by
  obtain ⟨c, rest, rfl⟩ := List.exists_cons_of_ne_nil hline
  simp [lines, splitAt_eq_splitOn, List.splitOn_eq_singleton hfree]

/-- The first line feed ends the first line. -/
theorem lines_append {line : List Char} (rest : List Char) (hfree : '\n' ∉ line) :
    lines (line ++ '\n' :: rest) = dropReturn line :: lines rest := by
  have hpieces := List.splitOn_append_cons_self_of_not_mem hfree rest
  obtain ⟨piece, pieces, hrest⟩ := List.exists_cons_of_ne_nil (List.splitOn_ne_nil '\n' rest)
  simp only [lines, splitAt_eq_splitOn, hpieces, hrest, List.dropLast_cons_cons,
    List.getLast?_cons_cons, List.map_cons]
  split <;> rfl

theorem hasLines_lines (text : List Char) : HasLines text (lines text) := by
  induction hlength : text.length using Nat.strong_induction_on generalizing text with
  | _ n ih =>
      by_cases hended : '\n' ∈ text
      · obtain ⟨line, rest, rfl, hfree⟩ := List.eq_append_cons_of_mem hended
        rw [lines_append rest hfree]
        refine HasLines.ended hfree (ih rest.length ?_ rest rfl)
        simp only [List.length_append, List.length_cons] at hlength
        omega
      · by_cases hempty : text = []
        · subst hempty
          exact HasLines.empty
        · rw [lines_of_free hempty hended]
          exact HasLines.unended hempty hended

end GrowthCurve.Text
