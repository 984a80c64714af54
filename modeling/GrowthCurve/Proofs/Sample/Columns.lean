import Mathlib
import GrowthCurve.Proofs.Sample.Layout

/-!
# The third column of a result file

Two changes of a file that concern its derivatives only: another number in the
third field of the first record, and no third field in any record. The first one
changes nothing in the series, the second one takes the derivatives away and
leaves the other columns.
-/

namespace GrowthCurve

open Text (Padding Padded)

/-! ## Lines of a text -/

namespace Text

/-- The end of a text, or a line feed and what comes after it. -/
def AtLineEnd (rest : List Char) : Prop :=
  rest = [] ∨ ∃ after, rest = '\n' :: after

theorem exists_first_line (text : List Char) :
    ∃ line rest, text = line ++ rest ∧ '\n' ∉ line ∧ AtLineEnd rest := by
  by_cases hended : '\n' ∈ text
  · obtain ⟨line, after, rfl, hfree⟩ := List.eq_append_cons_of_mem hended
    exact ⟨line, _, rfl, hfree, Or.inr ⟨after, rfl⟩⟩
  · exact ⟨text, [], (List.append_nil text).symm, hended, Or.inl rfl⟩

/-- A text has lines of blanks only if it has no other characters. -/
theorem HasLines.all_blank_iff {text : List Char} {lines : List (List Char)}
    (h : HasLines text lines) :
    (∀ line ∈ lines, line.all isBlank) ↔ ∀ c ∈ text, isBlank c = true := by
  induction h with
  | empty => simp
  | unended _ _ => simp [List.all_eq_true]
  | @ended line rest lines hfree hrest ih =>
      obtain ⟨after, hline, hafter⟩ := dropReturn_append line
      have hfeed : isBlank '\n' = true := by decide
      have hfirst : (∀ c ∈ line, isBlank c = true) ↔ (dropReturn line).all isBlank := by
        conv_lhs => rw [hline]
        rw [List.all_eq_true, List.forall_mem_append]
        exact and_iff_left hafter
      rw [List.forall_mem_cons, ih, List.forall_mem_append, List.forall_mem_cons, hfirst]
      simp [hfeed]

end Text

/-- What is kept of a list from its end on is kept behind any entry before it. -/
theorem rdropWhile_cons_of_ne_nil {α : Type} {p : α → Bool} {a : α} {l : List α}
    (h : (a :: l).rdropWhile p ≠ []) : (a :: l).rdropWhile p = a :: l.rdropWhile p := by
  unfold List.rdropWhile at h ⊢
  rw [List.reverse_cons, List.dropWhile_append] at h ⊢
  split_ifs at h ⊢ with hempty
  · rw [List.isEmpty_iff.mp hempty]
    by_cases ha : p a
    · simp [ha] at h
    · simp [ha]
  · simp

namespace Series

variable {text rest line : List Char}

theorem content_eq_nil_iff : content text = [] ↔ ∀ c ∈ text, Text.isBlank c = true := by
  rw [← (Text.hasLines_lines text).all_blank_iff]
  exact List.rdropWhile_eq_nil_iff

/-- The content of a file that is not blank begins with its first line. -/
theorem content_append (hfree : '\n' ∉ line) (hrest : Text.AtLineEnd rest)
    (hsome : ∃ c ∈ line ++ rest, ¬ Text.isBlank c = true) :
    ∃ kept, Record.fields kept = Record.fields line ∧
      content (line ++ rest) = kept :: content (rest.drop 1) := by
  have hlines : ∃ kept, Record.fields kept = Record.fields line ∧
      Text.lines (line ++ rest) = kept :: Text.lines (rest.drop 1) := by
    rcases hrest with rfl | ⟨after, rfl⟩
    · have hline : line ≠ [] := by
        rintro rfl
        simp at hsome
      rw [List.append_nil]
      exact ⟨line, rfl, Text.lines_of_free hline hfree⟩
    · obtain ⟨blank, hline, hblank⟩ := Text.dropReturn_append line
      refine ⟨Text.dropReturn line, ?_, Text.lines_append after hfree⟩
      conv_rhs => rw [hline]
      exact (Record.fields_append_blank _ hblank).symm
  obtain ⟨kept, hfields, hlines⟩ := hlines
  refine ⟨kept, hfields, ?_⟩
  have hne : content (line ++ rest) ≠ [] := by
    rw [ne_eq, content_eq_nil_iff]
    simpa using hsome
  have hcontent : ∀ text, content text =
      (Text.lines text).rdropWhile fun line => line.all Text.isBlank := fun _ => rfl
  rw [hcontent, hlines] at hne ⊢
  exact rdropWhile_cons_of_ne_nil hne

end Series

/-! ## Fields of a line -/

namespace Record

/-- The text ends neither a field nor a line. -/
structure IsField (cs : List Char) : Prop where
  no_comma : ',' ∉ cs
  no_feed : '\n' ∉ cs

theorem IsField.of_padded {core field : List Char} {x : Float}
    (hcore : Decimal.readReal core = .ok x) (h : Padded core field) : IsField field :=
  ⟨comma_not_mem_of_padded (Decimal.solid_of_readReal hcore) h,
    feed_not_mem_of_padded (Decimal.solid_of_readReal hcore) h⟩

theorem IsField.of_padding {cs : List Char} (h : Padding cs) : IsField cs :=
  ⟨h.not_mem_of_not_blank (by decide), fun hmem => (h _ hmem).2 rfl⟩

theorem IsField.append {cs ds : List Char} (h : IsField cs) (h' : IsField ds) :
    IsField (cs ++ ds) :=
  ⟨List.not_mem_append h.no_comma h'.no_comma, List.not_mem_append h.no_feed h'.no_feed⟩

/-- A line of three fields. -/
def triple (size time derivative : List Char) : List Char :=
  size ++ ',' :: (time ++ ',' :: derivative)

variable {size time derivative : List Char}

theorem feed_not_mem_pair (hsize : IsField size) (htime : IsField time) :
    '\n' ∉ size ++ ',' :: time := by
  simp [hsize.no_feed, htime.no_feed]

theorem feed_not_mem_triple (hsize : IsField size) (htime : IsField time)
    (hderivative : IsField derivative) : '\n' ∉ triple size time derivative := by
  unfold triple
  simp [hsize.no_feed, htime.no_feed, hderivative.no_feed]

/-- A line of more than one field is cut at its first comma. -/
theorem exists_first_field {n : ℕ} {cs : List Char} (hfree : '\n' ∉ cs)
    (hlength : (Text.splitAt ',' cs).length = n + 2) :
    ∃ field others, cs = field ++ ',' :: others ∧ IsField field ∧ '\n' ∉ others ∧
      (Text.splitAt ',' others).length = n + 1 := by
  have hcomma : ',' ∈ cs := by
    by_contra hnone
    rw [Text.splitAt_of_not_mem hnone] at hlength
    simp at hlength
  obtain ⟨field, others, rfl, hfield⟩ := List.eq_append_cons_of_mem hcomma
  rw [Text.splitAt_append_cons, Text.splitAt_of_not_mem hfield] at hlength
  simp only [List.mem_append, List.mem_cons, not_or] at hfree
  simp only [List.singleton_append, List.length_cons, Nat.add_right_cancel_iff] at hlength
  exact ⟨field, others, rfl, ⟨hfield, hfree.1⟩, hfree.2.2, hlength⟩

theorem exists_triple {line : List Char} (hfree : '\n' ∉ line)
    (hlength : (fields line).length = 3) :
    ∃ size time derivative, line = triple size time derivative ∧ IsField size ∧ IsField time ∧
      IsField derivative := by
  rw [fields_eq_map_trim, List.length_map] at hlength
  obtain ⟨size, others, rfl, hsize, hfree, hlength⟩ := exists_first_field hfree hlength
  obtain ⟨time, derivative, rfl, htime, hfree, hlength⟩ := exists_first_field hfree hlength
  refine ⟨size, time, derivative, rfl, hsize, htime, ?_, hfree⟩
  intro hcomma
  obtain ⟨field, others, rfl, hfield⟩ := List.eq_append_cons_of_mem hcomma
  rw [Text.splitAt_append_cons, Text.splitAt_of_not_mem hfield] at hlength
  have hpieces : Text.splitAt ',' others ≠ [] := by
    rw [Text.splitAt_eq_splitOn]
    exact List.splitOn_ne_nil _ _
  simp [hpieces] at hlength

/-- The record as it is without a derivative. -/
def withoutDerivative (r : Record) : Record :=
  { r with derivative := none }

end Record

namespace Series

open Record

/-- The content of a file that begins with a line of three fields. -/
theorem content_triple_append {size time field rest : List Char} (hsize : IsField size)
    (htime : IsField time) (hfield : IsField field) (hrest : Text.AtLineEnd rest) :
    ∃ kept, fields kept = [Text.trim size, Text.trim time, Text.trim field] ∧
      content (triple size time field ++ rest) = kept :: content (rest.drop 1) := by
  obtain ⟨kept, hkept, hcontent⟩ :=
    content_append (feed_not_mem_triple hsize htime hfield) hrest
      ⟨',', by simp [triple], by decide⟩
  refine ⟨kept, hkept.trans ?_, hcontent⟩
  exact fields_triple hsize.no_comma htime.no_comma hfield.no_comma

/-! ## Another first derivative -/

/-- The third field of the first line becomes `core`, with any blanks around it. -/
inductive FirstReplaced (core : List Char) : List Char → List Char → Prop where
  | intro {size time field field' rest : List Char} (hsize : IsField size) (htime : IsField time)
      (hfield : IsField field) (hfield' : Padded core field') (hrest : Text.AtLineEnd rest) :
      FirstReplaced core (triple size time field ++ rest) (triple size time field' ++ rest)

/-- The first derivative of a file does not matter. -/
theorem ofRecords_first (source : Path) (n : UInt64) (t d d' : Float) (rest : List Record) :
    ofRecords source (⟨n, t, some d⟩ :: rest) = ofRecords source (⟨n, t, some d'⟩ :: rest) := by
  unfold ofRecords derivativeColumn
  simp only [List.isEmpty_cons, Bool.false_eq_true, if_false, fullColumn?]
  cases fullColumn? Record.derivative rest <;> rfl

variable {source : Path} {text text' : String} {s : Series}

theorem exists_records_of_read (h : read source text = .ok s) :
    ∃ records width, s = ofRecords source records ∧ (∀ r ∈ records, r.width = width) ∧
      List.Forall₂ (fun line r => IsRecord (fields line) r) (content text.toList) records := by
  obtain ⟨records, hrecords, rfl⟩ := Except.map_eq_ok_iff.mp h
  have hlines := forall_isRecord_of_readRecords hrecords
  cases hcontent : content text.toList with
  | nil =>
      rw [hcontent] at hlines
      cases hlines
      exact ⟨[], 0, rfl, List.forall_mem_nil _, .nil⟩
  | cons line rest =>
      rw [hcontent, readRecords_none] at hrecords
      rw [hcontent] at hlines
      have hfits := forall_fits_of_readRecords hrecords
      refine ⟨records, (fields line).length, rfl, ?_, hlines⟩
      intro r hr
      obtain ⟨i, hi, rfl⟩ := List.mem_iff_getElem.mp hr
      have hfit := hfits.get (hfits.length_eq ▸ hi) hi
      exact hfit.1.width_eq.trans hfit.2

theorem read_of_isRecord {records : List Record} (width : ℕ)
    (hlines : List.Forall₂ (fun line r => IsRecord (fields line) r) (content text.toList) records)
    (hwidth : ∀ r ∈ records, r.width = width) :
    read source text = .ok (ofRecords source records) := by
  unfold read
  rw [readRecords_none_of_isRecord hlines hwidth]
  rfl

theorem FirstReplaced.read_eq {core : List Char} {d : Float} (hread : read source text = .ok s)
    (hcore : Decimal.readReal core = .ok d)
    (h : FirstReplaced core text.toList text'.toList) : read source text' = .ok s := by
  obtain ⟨records, width, rfl, hwidth, hlines⟩ := exists_records_of_read hread
  generalize hbefore : text.toList = before at h hlines
  generalize hafter : text'.toList = after at h
  cases h with
  | @intro size time field field' rest hsize htime hfield hfield' hrest =>
      obtain ⟨line, hline, hcontent⟩ := content_triple_append hsize htime hfield hrest
      obtain ⟨line', hline', hcontent'⟩ :=
        content_triple_append hsize htime (.of_padded hcore hfield') hrest
      rw [trim_of_padded (Decimal.solid_of_readReal hcore) hfield'] at hline'
      rw [hcontent] at hlines
      obtain _ | ⟨hfirst, hothers⟩ := hlines
      rw [hline] at hfirst
      cases hfirst with
      | @triple _ _ _ n t old hn ht hold =>
          rw [ofRecords_first source n t old d]
          have hrecord : IsRecord (fields line') ⟨n, t, some d⟩ := by
            rw [hline']
            exact .triple hn ht hcore
          refine read_of_isRecord width ?_ ?_
          · rw [hafter, hcontent']
            exact .cons hrecord hothers
          · exact List.forall_mem_cons.mpr (List.forall_mem_cons.mp hwidth)

/-! ## No derivatives -/

/-- The line loses its third field, of which blanks may stay. -/
inductive NarrowedLine : List Char → List Char → Prop where
  | intro {size time field kept : List Char} (hsize : IsField size) (htime : IsField time)
      (hfield : IsField field) (hkept : Padding kept) :
      NarrowedLine (triple size time field) (size ++ ',' :: (time ++ kept))

/-- Every line loses its third field. Blanks may follow after the last line. -/
inductive Narrowed : List Char → List Char → Prop where
  | blank {text : List Char} (hblank : ∀ c ∈ text, Text.isBlank c = true) : Narrowed text text
  | unended {line line' : List Char} (hline : NarrowedLine line line') : Narrowed line line'
  | ended {line line' text text' : List Char} (hline : NarrowedLine line line')
      (htext : Narrowed text text') : Narrowed (line ++ '\n' :: text) (line' ++ '\n' :: text')

/-- The trimmed fields of a line before and after it lost the third one. -/
def LosesThird (line line' : List Char) : Prop :=
  ∃ size time derivative, fields line = [size, time, derivative] ∧ fields line' = [size, time]

theorem NarrowedLine.content_append {line line' rest rest' : List Char}
    (h : NarrowedLine line line') (hrest : Text.AtLineEnd rest) (hrest' : Text.AtLineEnd rest')
    (hothers : List.Forall₂ LosesThird (content (rest.drop 1)) (content (rest'.drop 1))) :
    List.Forall₂ LosesThird (content (line ++ rest)) (content (line' ++ rest')) := by
  cases h with
  | @intro size time field kept hsize htime hfield hkept =>
      have htime' : IsField (time ++ kept) := htime.append (.of_padding hkept)
      obtain ⟨first, hfirst, hcontent⟩ := content_triple_append hsize htime hfield hrest
      obtain ⟨first', hfirst', hcontent'⟩ :=
        Series.content_append (feed_not_mem_pair hsize htime') hrest'
          ⟨',', by simp, by decide⟩
      rw [hcontent, hcontent']
      refine .cons ⟨Text.trim size, Text.trim time, Text.trim field, hfirst, ?_⟩ hothers
      rw [hfirst', fields_pair hsize.no_comma htime'.no_comma,
        Text.trim_append_blank time fun c hc => (hkept c hc).1]

theorem Narrowed.content {text text' : List Char} (h : Narrowed text text') :
    List.Forall₂ LosesThird (content text) (content text') := by
  induction h with
  | blank hblank =>
      rw [content_eq_nil_iff.mpr hblank]
      exact .nil
  | unended hline =>
      have hend : Text.AtLineEnd [] := Or.inl rfl
      have hcontent := hline.content_append hend hend .nil
      rwa [List.append_nil, List.append_nil] at hcontent
  | ended hline _ ih => exact hline.content_append (Or.inr ⟨_, rfl⟩) (Or.inr ⟨_, rfl⟩) ih

theorem LosesThird.isRecord {line line' : List Char} {r : Record} (h : LosesThird line line')
    (hr : IsRecord (fields line) r) : IsRecord (fields line') r.withoutDerivative := by
  obtain ⟨size, time, derivative, hline, hline'⟩ := h
  rw [hline] at hr
  rw [hline']
  cases hr with
  | triple hsize htime _ => exact .pair hsize htime

theorem isRecord_of_losesThird {lines lines' : List (List Char)} {records : List Record}
    (hlost : List.Forall₂ LosesThird lines lines')
    (hrecords : List.Forall₂ (fun line r => IsRecord (fields line) r) lines records) :
    List.Forall₂ (fun line r => IsRecord (fields line) r) lines'
      (records.map Record.withoutDerivative) := by
  induction hlost generalizing records with
  | nil =>
      cases hrecords
      exact .nil
  | cons hline _ ih =>
      obtain _ | ⟨hr, hrest⟩ := hrecords
      exact .cons (hline.isRecord hr) (ih hrest)

theorem ofRecords_withoutDerivative (source : Path) (records : List Record) :
    ofRecords source (records.map Record.withoutDerivative) =
      { ofRecords source records with derivatives := none } := by
  have hderivatives : derivativeColumn (records.map Record.withoutDerivative) = none := by
    rw [derivativeColumn_eq_none_iff]
    cases records with
    | nil => exact Or.inl rfl
    | cons r rest => exact Or.inr ⟨_, List.mem_cons_self, rfl⟩
  unfold ofRecords
  rw [hderivatives, List.map_map, List.map_map]
  rfl

theorem Narrowed.read_eq (hread : read source text = .ok s)
    (h : Narrowed text.toList text'.toList) :
    read source text' = .ok { s with derivatives := none } := by
  obtain ⟨records, -, rfl, -, hlines⟩ := exists_records_of_read hread
  rw [← ofRecords_withoutDerivative]
  refine read_of_isRecord 2 (isRecord_of_losesThird h.content hlines) ?_
  intro r hr
  obtain ⟨r, -, rfl⟩ := List.mem_map.mp hr
  rfl

/-! ## Files with a third column -/

/-- A series with derivatives comes from lines of three fields, of which there are some. -/
theorem length_fields_of_derivatives (hread : read source text = .ok s)
    (hderivatives : s.derivatives.isSome) :
    content text.toList ≠ [] ∧ ∀ line ∈ content text.toList, (fields line).length = 3 := by
  obtain ⟨records, -, rfl, -, hlines⟩ := exists_records_of_read hread
  obtain ⟨hne, hall⟩ := derivativeColumn_isSome_iff.mp hderivatives
  constructor
  · rintro hnil
    rw [hnil] at hlines
    cases hlines
    exact hne rfl
  · intro line hline
    obtain ⟨i, hi, rfl⟩ := List.mem_iff_getElem.mp hline
    have hi' : i < records.length := hlines.length_eq ▸ hi
    have hrecord := hlines.get hi hi'
    have hwidth : records[i].width = 3 := by
      simp [Record.width, hall _ (List.getElem_mem hi')]
    exact hrecord.width_eq.symm.trans hwidth

/-- The first line of such a file, and what comes after it. -/
theorem exists_first_triple {text : List Char} (hne : content text ≠ [])
    (hlength : ∀ line ∈ content text, (fields line).length = 3) :
    ∃ size time field rest, text = triple size time field ++ rest ∧ IsField size ∧
      IsField time ∧ IsField field ∧ Text.AtLineEnd rest ∧
      ∀ line ∈ content (rest.drop 1), (fields line).length = 3 := by
  obtain ⟨line, rest, rfl, hfree, hrest⟩ := Text.exists_first_line text
  have hsome : ∃ c ∈ line ++ rest, ¬ Text.isBlank c = true := by
    rw [ne_eq, content_eq_nil_iff] at hne
    simpa using hne
  obtain ⟨kept, hkept, hcontent⟩ := Series.content_append hfree hrest hsome
  rw [hcontent, List.forall_mem_cons, hkept] at hlength
  obtain ⟨size, time, field, rfl, hsize, htime, hfield⟩ := exists_triple hfree hlength.1
  exact ⟨size, time, field, rest, rfl, hsize, htime, hfield, hrest, hlength.2⟩

theorem exists_firstReplaced (core : List Char) {text : List Char} (hne : content text ≠ [])
    (hlength : ∀ line ∈ content text, (fields line).length = 3) :
    ∃ text', FirstReplaced core text text' := by
  obtain ⟨size, time, field, rest, rfl, hsize, htime, hfield, hrest, -⟩ :=
    exists_first_triple hne hlength
  have hnone : Padding [] := by simp [Padding]
  have hcore : Padded core ([] ++ core ++ []) := .intro [] [] hnone hnone
  exact ⟨_, .intro hsize htime hfield hcore hrest⟩

theorem exists_narrowed {text : List Char}
    (hlength : ∀ line ∈ content text, (fields line).length = 3) :
    ∃ text', Narrowed text text' := by
  induction hn : text.length using Nat.strong_induction_on generalizing text with
  | _ n ih =>
      by_cases hnil : content text = []
      · exact ⟨text, .blank (content_eq_nil_iff.mp hnil)⟩
      · obtain ⟨size, time, field, rest, rfl, hsize, htime, hfield, hrest, hothers⟩ :=
          exists_first_triple hnil hlength
        have hline : NarrowedLine (triple size time field) (size ++ ',' :: (time ++ [])) :=
          .intro hsize htime hfield (by simp [Padding])
        rcases hrest with rfl | ⟨after, rfl⟩
        · rw [List.append_nil]
          exact ⟨_, .unended hline⟩
        · have hshorter : after.length < n := by
            simp only [List.length_append, List.length_cons] at hn
            omega
          obtain ⟨after', hafter⟩ := ih after.length hshorter hothers rfl
          exact ⟨_, .ended hline hafter⟩

end Series

end GrowthCurve
