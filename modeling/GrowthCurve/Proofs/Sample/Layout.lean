import Mathlib
import GrowthCurve.Proofs.Decimal.Numerals
import GrowthCurve.Proofs.Sample.Grammar
import GrowthCurve.Proofs.Text.Padding

/-!
# Writing a result file

The ways to write records into a file: the size in decimal digits, each real as
any text that is read as it, blanks around the fields, and either line end after
each record. Blank lines may follow. However the records were written, reading
the file gives their series.
-/

namespace GrowthCurve

open Text (Padding Padded LineEnd)

/-! ## Line ends -/

theorem Text.dropReturn_append (line : List Char) :
    ∃ after, line = dropReturn line ++ after ∧ ∀ c ∈ after, isBlank c = true := by
  unfold dropReturn
  split_ifs with hreturn
  · refine ⟨['\r'], ?_, ?_⟩
    · exact (List.dropLast_append_getLast? '\r' hreturn).symm
    · intro c hc
      rw [List.mem_singleton.mp hc]
      decide
  · exact ⟨[], (List.append_nil line).symm, by simp⟩

/-- A line end takes at most blanks from the line before it. -/
theorem Text.LineEnd.lines_append {line ending : List Char} (h : LineEnd ending)
    (rest : List Char) (hfree : '\n' ∉ line) :
    ∃ kept after, line = kept ++ after ∧ (∀ c ∈ after, isBlank c = true) ∧
      lines (line ++ ending ++ rest) = kept :: lines rest := by
  cases h with
  | feed =>
      obtain ⟨after, hline, hafter⟩ := dropReturn_append line
      refine ⟨dropReturn line, after, hline, hafter, ?_⟩
      rw [List.append_assoc, List.singleton_append, Text.lines_append rest hfree]
  | returnFeed =>
      have hfree' : '\n' ∉ line ++ ['\r'] := by simpa using hfree
      refine ⟨line, [], (List.append_nil line).symm, by simp, ?_⟩
      have hdrop : dropReturn (line ++ ['\r']) = line := by simp [dropReturn]
      have hlines := Text.lines_append rest hfree'
      rw [hdrop] at hlines
      rw [← hlines]
      simp

/-! ## One record -/

namespace Record

variable {r : Record} {line after : List Char}

/-- The lines that a record can be written in. -/
inductive Writes : Record → List Char → Prop where
  | pair {n : UInt64} {t : Float} {text size time : List Char}
      (hsize : Padded (toString n.toNat).toList size)
      (htext : Decimal.readReal text = .ok t) (htime : Padded text time) :
      Writes ⟨n, t, none⟩ (size ++ ',' :: time)
  | triple {n : UInt64} {t d : Float} {text slope size time derivative : List Char}
      (hsize : Padded (toString n.toNat).toList size)
      (htext : Decimal.readReal text = .ok t) (htime : Padded text time)
      (hslope : Decimal.readReal slope = .ok d) (hderivative : Padded slope derivative) :
      Writes ⟨n, t, some d⟩ (size ++ ',' :: (time ++ ',' :: derivative))

theorem fields_append_blank (line : List Char) (hafter : ∀ c ∈ after, Text.isBlank c = true) :
    fields (line ++ after) = fields line := by
  unfold fields
  rw [Text.trim_append_blank line hafter]

theorem fields_eq_map_trim (line : List Char) :
    fields line = (Text.splitAt ',' line).map Text.trim :=
  Text.map_trim_splitAt_trim (by decide) line

theorem fields_pair {size time : List Char} (hsize : ',' ∉ size) (htime : ',' ∉ time) :
    fields (size ++ ',' :: time) = [Text.trim size, Text.trim time] := by
  rw [fields_eq_map_trim, Text.splitAt_append_cons, Text.splitAt_of_not_mem hsize,
    Text.splitAt_of_not_mem htime]
  rfl

theorem fields_triple {size time derivative : List Char} (hsize : ',' ∉ size)
    (htime : ',' ∉ time) (hderivative : ',' ∉ derivative) :
    fields (size ++ ',' :: (time ++ ',' :: derivative)) =
      [Text.trim size, Text.trim time, Text.trim derivative] := by
  rw [fields_eq_map_trim, Text.splitAt_append_cons, Text.splitAt_append_cons,
    Text.splitAt_of_not_mem hsize, Text.splitAt_of_not_mem htime,
    Text.splitAt_of_not_mem hderivative]
  rfl

section Fields

open Decimal (Solid)

variable {core field : List Char}

theorem trim_of_padded (hcore : ∀ c ∈ core, Solid c) (h : Padded core field) :
    Text.trim field = core :=
  h.trim_eq fun c hc => (hcore c hc).1

theorem comma_not_mem_of_padded (hcore : ∀ c ∈ core, Solid c) (h : Padded core field) :
    ',' ∉ field :=
  h.not_mem (fun hmem => (hcore ',' hmem).2 rfl) (Or.inr (by decide))

theorem feed_not_mem_of_padded (hcore : ∀ c ∈ core, Solid c) (h : Padded core field) :
    '\n' ∉ field := by
  refine h.not_mem (fun hmem => ?_) (Or.inl rfl)
  exact absurd (hcore '\n' hmem).1 (by decide)

end Fields

theorem Writes.feed_not_mem (h : r.Writes line) : '\n' ∉ line := by
  cases h with
  | pair hsize htext htime =>
      have hsize := feed_not_mem_of_padded (fun c => Decimal.solid_of_mem_toString) hsize
      have htime := feed_not_mem_of_padded (Decimal.solid_of_readReal htext) htime
      simp [hsize, htime]
  | triple hsize htext htime hslope hderivative =>
      have hsize := feed_not_mem_of_padded (fun c => Decimal.solid_of_mem_toString) hsize
      have htime := feed_not_mem_of_padded (Decimal.solid_of_readReal htext) htime
      have hderivative := feed_not_mem_of_padded (Decimal.solid_of_readReal hslope) hderivative
      simp [hsize, htime, hderivative]

theorem Writes.isRecord (h : r.Writes line) : IsRecord (fields line) r := by
  have hnatural : ∀ n : UInt64,
      Decimal.readNatural (UInt64.size - 1) (toString n.toNat).toList = .ok n.toNat :=
    fun n => Decimal.readNatural_toString (Nat.le_sub_one_of_lt n.toNat_lt_size)
  cases h with
  | @pair n t text size time hsize htext htime =>
      have hdigits : ∀ c ∈ (toString n.toNat).toList, Decimal.Solid c :=
        fun c => Decimal.solid_of_mem_toString
      have hreal := Decimal.solid_of_readReal htext
      rw [fields_pair (comma_not_mem_of_padded hdigits hsize) (comma_not_mem_of_padded hreal htime),
        trim_of_padded hdigits hsize, trim_of_padded hreal htime]
      exact IsRecord.pair (hnatural n) htext
  | @triple n t d text slope size time derivative hsize htext htime hslope hderivative =>
      have hdigits : ∀ c ∈ (toString n.toNat).toList, Decimal.Solid c :=
        fun c => Decimal.solid_of_mem_toString
      have hreal := Decimal.solid_of_readReal htext
      have hreal' := Decimal.solid_of_readReal hslope
      rw [fields_triple (comma_not_mem_of_padded hdigits hsize)
          (comma_not_mem_of_padded hreal htime) (comma_not_mem_of_padded hreal' hderivative),
        trim_of_padded hdigits hsize, trim_of_padded hreal htime, trim_of_padded hreal' hderivative]
      exact IsRecord.triple (hnatural n) htext hslope

end Record

/-! ## All records -/

namespace Series

variable {records : List Record} {text : List Char}

/-- Nothing but blank lines, the last of which may lack its end. -/
inductive BlankLines : List Char → Prop where
  | unended {line : List Char} (hline : Padding line) : BlankLines line
  | ended {line ending text : List Char} (hline : Padding line) (hending : LineEnd ending)
      (htext : BlankLines text) : BlankLines (line ++ ending ++ text)

/-- The texts that records can be written in, one record a line. -/
inductive Layout : List Record → List Char → Prop where
  | blank {text : List Char} (htext : BlankLines text) : Layout [] text
  | unended {r : Record} {line : List Char} (hline : r.Writes line) : Layout [r] line
  | ended {r : Record} {records : List Record} {line ending text : List Char}
      (hline : r.Writes line) (hending : LineEnd ending) (htext : Layout records text) :
      Layout (r :: records) (line ++ ending ++ text)

theorem BlankLines.all_blank (h : BlankLines text) :
    ∀ line ∈ Text.lines text, line.all Text.isBlank := by
  induction h with
  | @unended line hline =>
      intro other hother
      by_cases hempty : line = []
      · subst hempty
        cases hother
      · rw [Text.lines_of_free hempty fun hmem => (hline _ hmem).2 rfl,
          List.mem_singleton] at hother
        rw [hother, List.all_eq_true]
        exact fun c hc => (hline c hc).1
  | @ended line ending text hline hending htext ih =>
      obtain ⟨kept, after, rfl, -, hlines⟩ :=
        hending.lines_append text fun hmem => (hline _ hmem).2 rfl
      rw [hlines, List.forall_mem_cons]
      refine ⟨?_, ih⟩
      rw [List.all_eq_true]
      exact fun c hc => (hline c (List.mem_append_left _ hc)).1

/-- The lines of a layout are the records and then blank lines. -/
theorem Layout.lines_eq (h : Layout records text) :
    ∃ written blank, Text.lines text = written ++ blank ∧
      List.Forall₂ (fun line r => Record.IsRecord (Record.fields line) r) written records ∧
      ∀ line ∈ blank, line.all Text.isBlank := by
  induction h with
  | blank htext => exact ⟨[], _, rfl, List.Forall₂.nil, htext.all_blank⟩
  | @unended r line hline =>
      have hne : line ≠ [] := by
        rintro rfl
        exact Record.not_isRecord_of_blank rfl r hline.isRecord
      refine ⟨[line], [], Text.lines_of_free hne hline.feed_not_mem, ?_, by simp⟩
      exact List.Forall₂.cons hline.isRecord List.Forall₂.nil
  | ended hline hending htext ih =>
      obtain ⟨written, blank, hlines, hwritten, hblank⟩ := ih
      obtain ⟨kept, after, rfl, hafter, hcut⟩ := hending.lines_append _ hline.feed_not_mem
      refine ⟨kept :: written, blank, by rw [hcut, hlines, List.cons_append], ?_, hblank⟩
      refine List.Forall₂.cons ?_ hwritten
      rw [← Record.fields_append_blank kept hafter]
      exact hline.isRecord

theorem Layout.content_records (h : Layout records text) :
    List.Forall₂ (fun line r => Record.IsRecord (Record.fields line) r) (content text) records := by
  obtain ⟨written, blank, hlines, hwritten, hblank⟩ := h.lines_eq
  have hlast : written.rdropWhile (fun line => line.all Text.isBlank) = written := by
    rw [List.rdropWhile_eq_self_iff]
    intro hne hlastBlank
    obtain ⟨i, hi, hget⟩ := List.mem_iff_getElem.mp (List.getLast_mem hne)
    have hrecord := hwritten.get hi (hwritten.length_eq ▸ hi)
    rw [List.get_eq_getElem, hget] at hrecord
    exact Record.not_isRecord_of_blank hlastBlank _ hrecord
  have hcontent : content text = written := by
    unfold content
    rw [hlines, List.reverse_append, List.dropWhile_append_of_pos]
    · exact hlast
    · exact fun line hline => hblank line (List.mem_reverse.mp hline)
  rw [hcontent]
  exact hwritten

/-- All records have a derivative, or none has. -/
def Uniform (records : List Record) : Prop :=
  (∀ r ∈ records, r.derivative.isSome) ∨ ∀ r ∈ records, r.derivative = none

theorem Uniform.exists_width (h : Uniform records) : ∃ width, ∀ r ∈ records, r.width = width := by
  rcases h with h | h
  · exact ⟨3, fun r hr => by simp [Record.width, h r hr]⟩
  · exact ⟨2, fun r hr => by simp [Record.width, h r hr]⟩

/-- Equally wide records are read from their lines. -/
theorem readRecords_of_isRecord {number width : ℕ} {lines : List (List Char)}
    (h : List.Forall₂ (fun line r => Record.IsRecord (Record.fields line) r) lines records)
    (hwidth : ∀ r ∈ records, r.width = width) :
    readRecords number (some width) lines = .ok records := by
  induction h generalizing number with
  | nil => rfl
  | @cons line r lines records hrecord hrest ih =>
      obtain ⟨rfl, hrestWidth⟩ := List.forall_mem_cons.mp hwidth
      rw [readRecords_of_fits (Record.read_eq_ok_iff.mpr hrecord), ih hrestWidth]
      rfl

/-- The first record decides the width that all have. -/
theorem readRecords_none_of_isRecord {number width : ℕ} {lines : List (List Char)}
    (h : List.Forall₂ (fun line r => Record.IsRecord (Record.fields line) r) lines records)
    (hwidth : ∀ r ∈ records, r.width = width) : readRecords number none lines = .ok records := by
  cases h with
  | nil => rfl
  | @cons line r lines records hrecord hrest =>
      rw [readRecords_none, ← hrecord.width_eq, hwidth r List.mem_cons_self]
      exact readRecords_of_isRecord (.cons hrecord hrest) hwidth

theorem Layout.readRecords_content (h : Layout records text) (huniform : Uniform records) :
    readRecords 1 none (content text) = .ok records := by
  obtain ⟨width, hwidth⟩ := huniform.exists_width
  exact readRecords_none_of_isRecord h.content_records hwidth

/-- **Reading follows the layout**: however uniform records were written, with blanks
around every field, either line end, or none at the very end, and blank lines behind
the last record, reading gives their series: the sizes and the times as recorded, and
the derivatives but for the first, which is zero. The layout is described on the text
alone, without the reader. -/
theorem read_of_layout (source : Path) {records : List Record} (huniform : Uniform records) :
    Holds (ofRecords source records) records ∧
      (∀ text : String, Layout records text.toList →
        (read source text).mapError (Error.ofMalformed source) = .ok (ofRecords source records)) ∧
      ∀ text other : String, Layout records text.toList → Layout records other.toList →
        read source text = read source other := by
  have hread : ∀ text : String, Layout records text.toList →
      read source text = .ok (ofRecords source records) := by
    intro text htext
    unfold read
    rw [htext.readRecords_content huniform]
    rfl
  refine ⟨holds_ofRecords source records, ?_, ?_⟩
  · intro text htext
    rw [hread text htext]
    rfl
  · intro text other htext hother
    rw [hread text htext, hread other hother]

theorem read_of_layout_two_lines :
    Uniform [⟨18446744073709551615, 1.5, some 2⟩, ⟨7, 3, some 0.25⟩] ∧
      (read ⟨"runs.csv"⟩ "18446744073709551615 ,1.5,2\r\n7,\t3,0.25\n \r\n").mapError
          (Error.ofMalformed ⟨"runs.csv"⟩) =
        .ok ⟨⟨"runs.csv"⟩, [18446744073709551615, 7], [1.5, 3], some [0, 0.25]⟩ := by
  have huniform : Uniform [⟨18446744073709551615, 1.5, some 2⟩, ⟨7, 3, some 0.25⟩] :=
    Or.inl (by simp)
  have hbare : ∀ core, Padded core ([] ++ core ++ []) :=
    fun core => Padded.intro [] [] (by decide) (by decide)
  have hblank : ∀ core, Padded core ([] ++ core ++ [' ']) :=
    fun core => Padded.intro [] [' '] (by decide) (by decide)
  have htab : ∀ core, Padded core (['\t'] ++ core ++ []) :=
    fun core => Padded.intro ['\t'] [] (by decide) (by decide)
  have hfirst : Record.Writes ⟨18446744073709551615, 1.5, some 2⟩ _ :=
    Record.Writes.triple (hblank _) (show Decimal.readReal ['1', '.', '5'] = .ok 1.5 from rfl)
      (hbare _) (show Decimal.readReal ['2'] = .ok 2 from rfl) (hbare _)
  have hsecond : Record.Writes ⟨7, 3, some 0.25⟩ _ :=
    Record.Writes.triple (hbare _) (show Decimal.readReal ['3'] = .ok 3 from rfl) (htab _)
      (show Decimal.readReal ['0', '.', '2', '5'] = .ok 0.25 from rfl) (hbare _)
  have htrailing : BlankLines ([' '] ++ ['\r', '\n'] ++ []) :=
    BlankLines.ended (by decide) LineEnd.returnFeed (BlankLines.unended (by decide))
  have hlayout := Layout.ended hfirst LineEnd.returnFeed
    (Layout.ended hsecond LineEnd.feed (Layout.blank htrailing))
  exact ⟨huniform, (read_of_layout ⟨"runs.csv"⟩ huniform).2.1 _ hlayout⟩

end Series
end GrowthCurve
