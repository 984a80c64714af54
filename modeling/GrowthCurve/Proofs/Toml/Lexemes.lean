import Mathlib
import GrowthCurve.Proofs.Text.Lines
import GrowthCurve.Proofs.Toml.Grammar

/-!
# Blanks, texts and keys are read

Each part of a text is taken up to its end, whatever comes after it, as long as
that cannot belong to the part.
-/

namespace GrowthCurve.Toml

open Text

/-! ## Blanks -/

theorem skipBlanks_cons {c : Char} (h : isBlank c = false) (cs : List Char) :
    skipBlanks (c :: cs) = c :: cs :=
  List.dropWhile_cons_of_neg (by simp [h])

theorem skipBlanks_append {b : List Char} (h : Blanks b) (cs : List Char) :
    skipBlanks (b ++ cs) = skipBlanks cs :=
  List.dropWhile_append_of_pos h

theorem skipBlanks_to {b : List Char} {c : Char} (h : Blanks b) (hc : isBlank c = false)
    (cs : List Char) : skipBlanks (b ++ c :: cs) = c :: cs := by
  rw [skipBlanks_append h, skipBlanks_cons hc]

theorem skipBlanks_all {b : List Char} (h : Blanks b) : skipBlanks b = [] :=
  List.dropWhile_eq_nil_iff.mpr h

theorem skipBlanks_skipBlanks (cs : List Char) : skipBlanks (skipBlanks cs) = skipBlanks cs :=
  List.dropWhile_idempotent isBlank cs

/-- From a character that shows, nothing is skipped. -/
theorem skipBlanks_append_cons {c : Char} (h : isBlank c = false) (cs rest : List Char) :
    skipBlanks (cs ++ c :: rest) = skipBlanks cs ++ c :: rest := by
  induction cs with
  | nil => exact skipBlanks_cons h rest
  | cons d cs ih =>
      by_cases hd : isBlank d = true
      · have hskip := List.dropWhile_cons_of_pos (l := cs ++ c :: rest) hd
        have hskip' := List.dropWhile_cons_of_pos (l := cs) hd
        exact hskip.trans (ih.trans (congrArg (· ++ c :: rest) hskip'.symm))
      · rw [List.cons_append, skipBlanks_cons (Bool.eq_false_of_not_eq_true hd),
          skipBlanks_cons (Bool.eq_false_of_not_eq_true hd)]
        rfl

theorem blanks_cons {c : Char} {b : List Char} (hc : isBlank c = true) (hb : Blanks b) :
    Blanks (c :: b) :=
  List.forall_mem_cons.mpr ⟨hc, hb⟩

theorem blanks_nil : Blanks [] :=
  nofun

/-- A printable character is part of a line. -/
theorem not_line_end_of_printable {c : Char} (h : isPrintable c = true) : c ≠ '\n' ∧ c ≠ '\r' := by
  constructor <;> rintro rfl <;> exact absurd h (by decide)

theorem not_line_end_of_blank {c : Char} (h : isBlank c = true) : c ≠ '\n' ∧ c ≠ '\r' := by
  constructor <;> rintro rfl <;> exact absurd h (by decide)

theorem skipSpace?_cons {c : Char} (hfeed : c ≠ '\n') (hreturn : c ≠ '\r') (inComment : Bool)
    (rest : List Char) :
    skipSpace? inComment (c :: rest) =
      if inComment then if isPrintable c then skipSpace? true rest else none
      else if isBlank c then skipSpace? false rest
      else if c = '#' then skipSpace? true rest
      else some (c :: rest) := by
  rw [skipSpace?]
  · exact fun h => absurd h hfeed
  · exact fun _ h => absurd h hreturn

theorem skipSpace?_lineEnd {e : List Char} (h : LineEnd e) (inComment : Bool) (rest : List Char) :
    skipSpace? inComment (e ++ rest) = skipSpace? false rest := by
  cases h <;> rfl

theorem skipSpace?_printable {cs : List Char} (h : ∀ c ∈ cs, isPrintable c = true)
    (rest : List Char) : skipSpace? true (cs ++ rest) = skipSpace? true rest := by
  induction cs with
  | nil => rfl
  | cons c cs ih =>
      obtain ⟨hc, hcs⟩ := List.forall_mem_cons.mp h
      obtain ⟨hfeed, hreturn⟩ := not_line_end_of_printable hc
      rw [List.cons_append, skipSpace?_cons hfeed hreturn, if_pos rfl, if_pos hc]
      exact ih hcs

/-- Whatever stands between items is passed over, up to the next item or mark. -/
theorem skipSpace?_append {sp : List Char} (h : Space sp) {c : Char} (hc : isBlank c = false)
    (hend : c ≠ '\n' ∧ c ≠ '\r') (hcomment : c ≠ '#') (rest : List Char) :
    skipSpace? false (sp ++ c :: rest) = some (c :: rest) := by
  induction h with
  | nil =>
      rw [List.nil_append, skipSpace?_cons hend.1 hend.2]
      simp [hc, hcomment]
  | @blank b cs hb _ ih =>
      obtain ⟨hfeed, hreturn⟩ := not_line_end_of_blank hb
      rw [List.cons_append, skipSpace?_cons hfeed hreturn, ih]
      simp [hb]
  | @line comment e cs hcomment hends _ ih =>
      cases hcomment with
      | none =>
          rw [List.nil_append, List.append_assoc, skipSpace?_lineEnd hends]
          exact ih
      | text hprintable =>
          rw [List.cons_append, List.cons_append, skipSpace?_cons (by decide) (by decide),
            List.append_assoc, List.append_assoc]
          show skipSpace? true _ = _
          rw [skipSpace?_printable hprintable, skipSpace?_lineEnd hends]
          exact ih

/-- No value goes on with these characters. -/
inductive EndsValue : List Char → Prop where
  | nil {b : List Char} (blanks : Blanks b) : EndsValue b
  | mark {b cs : List Char} {c : Char} (blanks : Blanks b)
      (mark : c ∈ ['\n', '\r', '#', ',', ']', '\x7d']) : EndsValue (b ++ c :: cs)

theorem endsValue_blank {c : Char} {cs : List Char} (hc : isBlank c = true) (h : EndsValue cs) :
    EndsValue (c :: cs) := by
  cases h with
  | nil hb => exact .nil (blanks_cons hc hb)
  | @mark b cs m hb hm => exact .mark (b := c :: b) (blanks_cons hc hb) hm

theorem endsValue_mark {c : Char} (hc : c ∈ ['\n', '\r', '#', ',', ']', '\x7d'])
    (cs : List Char) : EndsValue (c :: cs) :=
  .mark (b := []) blanks_nil hc

theorem endsValue_blanks {b cs : List Char} (hb : Blanks b) (h : EndsValue cs) :
    EndsValue (b ++ cs) := by
  induction b with
  | nil => exact h
  | cons c b ih =>
      obtain ⟨hc, hb⟩ := List.forall_mem_cons.mp hb
      exact endsValue_blank hc (ih hb)

theorem endsValue_lineEnd {e : List Char} (h : LineEnd e) (cs : List Char) :
    EndsValue (e ++ cs) := by
  cases h
  · exact endsValue_mark (by decide) _
  · exact endsValue_mark (by decide) _

theorem endsValue_comment {comment cs : List Char} (h : Comment comment) (hcs : EndsValue cs) :
    EndsValue (comment ++ cs) := by
  cases h with
  | none => exact hcs
  | text _ => exact endsValue_mark (by decide) _

theorem endsValue_space {sp cs : List Char} (h : Space sp) (hcs : EndsValue cs) :
    EndsValue (sp ++ cs) := by
  induction h with
  | nil => exact hcs
  | blank hc _ ih => exact endsValue_blank hc ih
  | line hcomment hends _ _ =>
      rw [List.append_assoc, List.append_assoc]
      exact endsValue_comment hcomment (endsValue_lineEnd hends _)

/-! ## Texts -/

theorem escaped?_of_escapes {l c : Char} (h : Escapes l c) : escaped? l = some c := by
  cases h <;> rfl

theorem escapes_letter {l c : Char} (h : Escapes l c) :
    isPrintable l = true ∧ l ≠ 'u' ∧ l ≠ 'U' := by
  cases h <;> decide

/-- A character that stands for itself between quotation marks. -/
structure IsPlain (c : Char) : Prop where
  printable : isPrintable c = true
  not_quote : c ≠ '"'
  not_backslash : c ≠ '\\'

theorem isPlain_of_hexDigit {c : Char} (h : Text.isDigitOf 16 c = true) : IsPlain c := by
  refine ⟨?_, ?_, ?_⟩
  · have hbounds : 0x30 ≤ c.toNat ∧ c.toNat ≤ 0x66 := by
      unfold Text.isDigitOf Text.digitValue? at h
      simp only [Char.le_def, UInt32.le_iff_toNat_le] at h
      show 0x30 ≤ c.val.toNat ∧ c.val.toNat ≤ 0x66
      split_ifs at h with h₁ h₂ h₃
      · exact ⟨h₁.1, le_trans h₁.2 (by decide)⟩
      · exact ⟨le_trans (by decide) h₂.1, h₂.2⟩
      · exact ⟨le_trans (by decide) h₃.1, le_trans h₃.2 (by decide)⟩
    simp only [isPrintable, Bool.or_eq_true, Bool.and_eq_true, decide_eq_true_eq]
    omega
  · rintro rfl
    exact absurd h (by decide)
  · rintro rfl
    exact absurd h (by decide)

theorem hexDigits_of_codePoint? {ds : List Char} {c : Char} (h : codePoint? ds = some c) :
    ∀ d ∈ ds, IsPlain d := by
  obtain ⟨n, hn, -⟩ := Option.bind_eq_some_iff.mp h
  have hall : ds.all (Text.isDigitOf 16) = true := by
    by_contra hnot
    rw [Text.hexNumber?, if_neg hnot] at hn
    cases hn
  exact fun d hd => isPlain_of_hexDigit (List.all_eq_true.mp hall d hd)

theorem takeLine_plain {c : Char} (h : IsPlain c) (rest : List Char) :
    takeLine '"' true false (c :: rest) =
      (takeLine '"' true false rest).map fun r => (c :: r.1, r.2) := by
  have hbackslash : (c == '\\') = false := beq_false_of_ne h.not_backslash
  simp [takeLine, h.printable, h.not_quote, hbackslash]

theorem takeLine_plains {ds cs rest tail : List Char} (h : ∀ d ∈ ds, IsPlain d)
    (hrest : takeLine '"' true false rest = some (cs, tail)) :
    takeLine '"' true false (ds ++ rest) = some (ds ++ cs, tail) := by
  induction ds with
  | nil => exact hrest
  | cons d ds ih =>
      obtain ⟨hd, hds⟩ := List.forall_mem_cons.mp h
      rw [List.cons_append, takeLine_plain hd, ih hds]
      rfl

/-- The character after a backslash does not end the text. -/
theorem takeLine_escape {l : Char} {cs rest tail : List Char} (h : isPrintable l = true)
    (hrest : takeLine '"' true false rest = some (cs, tail)) :
    takeLine '"' true false ('\\' :: l :: rest) = some ('\\' :: l :: cs, tail) := by
  have hbackslash : isPrintable '\\' = true := by decide
  simp [takeLine, h, hbackslash, hrest]

theorem takeLine_append {s cs : List Char} (h : CharsText s cs) (tail : List Char) :
    takeLine '"' true false (cs ++ '"' :: tail) = some (cs, tail) := by
  induction h with
  | nil => rfl
  | plain hprintable hquote hbackslash _ ih =>
      rw [List.cons_append, takeLine_plain ⟨hprintable, hquote, hbackslash⟩, ih]
      rfl
  | letter hescapes _ ih => exact takeLine_escape (escapes_letter hescapes).1 ih
  | unit hdigits _ ih =>
      have hplains := takeLine_plains (hexDigits_of_codePoint? hdigits) ih
      exact takeLine_escape (by decide) hplains
  | longUnit hdigits _ ih =>
      have hplains := takeLine_plains (hexDigits_of_codePoint? hdigits) ih
      exact takeLine_escape (by decide) hplains

theorem unescape?_of_charsText {s cs : List Char} (h : CharsText s cs) :
    unescape? false cs = some s := by
  induction h with
  | nil => rfl
  | @plain c s cs _ _ hbackslash _ ih =>
      rw [unescape?]
      case plain => simp [hbackslash, ih]
      case plain.x_1 | plain.x_2 | plain.x_3 => simp [hbackslash]
  | @letter l c s cs hescapes _ ih =>
      obtain ⟨-, hunit, hlong⟩ := escapes_letter hescapes
      rw [unescape?]
      case letter => simp [escaped?_of_escapes hescapes, ih]
      case letter.x_1 => simp [hunit]
      case letter.x_2 => simp [hlong]
  | unit hdigits _ ih =>
      simp only [unescape?, hdigits, ih]
      rfl
  | longUnit hdigits _ ih =>
      simp only [unescape?, hdigits, ih]
      rfl

theorem takeLine_literal {cs : List Char} (hprintable : ∀ c ∈ cs, isPrintable c = true)
    (hquote : '\'' ∉ cs) (tail : List Char) :
    takeLine '\'' false false (cs ++ '\'' :: tail) = some (cs, tail) := by
  induction cs with
  | nil => rfl
  | cons c cs ih =>
      obtain ⟨hc, hcs⟩ := List.forall_mem_cons.mp hprintable
      obtain ⟨hne, hquote⟩ := not_or.mp (mt List.mem_cons.mpr hquote)
      rw [List.cons_append, takeLine]
      simp [Ne.symm hne, hc, ih hcs hquote]

/-- A text on one line starts with one quote and is read up to the same quote. -/
theorem readLine_append {s : String} {cs : List Char} (h : QuotedText s cs) (tail : List Char) :
    ∃ quote inner, cs = quote :: inner ∧ quote ∈ ['"', '\''] ∧
      readLine quote (inner ++ tail) = some (s, tail) := by
  cases h with
  | @basic cs hchars =>
      refine ⟨'"', _, rfl, by decide, ?_⟩
      rw [List.append_assoc]
      show (takeLine '"' true false (cs ++ '"' :: tail) >>= _) = _
      rw [takeLine_append hchars]
      show (unescape? false cs >>= _) = _
      rw [unescape?_of_charsText hchars]
      exact congrArg (fun s => some (s, tail)) String.ofList_toList
  | literal hprintable hquote =>
      refine ⟨'\'', _, rfl, by decide, ?_⟩
      rw [List.append_assoc]
      show (takeLine '\'' false false (s.toList ++ '\'' :: tail) >>= _) = _
      rw [takeLine_literal hprintable hquote]
      exact congrArg (fun s => some (s, tail)) String.ofList_toList

theorem CharsText.not_quote {s cs : List Char} (h : CharsText s cs) : cs.head? ≠ some '"' := by
  cases h with
  | nil => nofun
  | plain _ hquote => simpa using hquote
  | letter | unit | longUnit => simp

/-- Only the quotes of an empty text stand side by side. -/
theorem QuotedText.head {s : String} {quote : Char} {inner : List Char}
    (h : QuotedText s (quote :: inner)) (hinner : inner.head? = some quote) : inner = [quote] := by
  cases h with
  | @basic cs hchars =>
      cases cs with
      | nil => rfl
      | cons c cs => exact absurd hinner hchars.not_quote
  | literal _ hquote =>
      cases hs : s.toList with
      | nil => rfl
      | cons c cs =>
          rw [hs] at hinner hquote
          obtain rfl := Option.some.inj hinner
          exact absurd List.mem_cons_self hquote

/-- A text on one line is not taken for one that goes over several lines. -/
theorem readText_append {s : String} {cs : List Char} (h : QuotedText s cs) {tail : List Char}
    (htail : tail.head? ≠ some '"' ∧ tail.head? ≠ some '\'') :
    ∃ quote inner, cs = quote :: inner ∧ quote ∈ ['"', '\''] ∧
      readText quote (inner ++ tail) = some (s, tail) := by
  obtain ⟨quote, inner, rfl, hquote, hread⟩ := readLine_append h tail
  refine ⟨quote, inner, rfl, hquote, ?_⟩
  have htail : tail.head? ≠ some quote := by
    simp only [List.mem_cons, List.not_mem_nil, or_false] at hquote
    rcases hquote with rfl | rfl
    · exact htail.1
    · exact htail.2
  rw [← hread]
  unfold readText
  split
  case h_2 => rfl
  case h_1 a b rest heq =>
    -- two more quotes would be the end of an empty text and one that follows it
    refine if_neg ?_
    rintro ⟨rfl, rfl⟩
    cases inner with
    | nil => exact htail (congrArg List.head? heq)
    | cons c inner =>
        obtain ⟨rfl, heq⟩ := List.cons.inj heq
        obtain rfl := (List.cons.inj (h.head rfl)).2
        exact htail (congrArg List.head? heq)

/-! ## Keys -/

/-- A key does not go on with these characters. -/
def NoKeyChar (cs : List Char) : Prop :=
  ∀ c, cs.head? = some c → isKeyChar c = false

theorem noKeyChar_cons {c : Char} (h : isKeyChar c = false) (cs : List Char) :
    NoKeyChar (c :: cs) := by
  rintro _ ⟨⟩
  exact h

theorem noKeyChar_blanks {b cs : List Char} (hb : Blanks b) (h : NoKeyChar cs) :
    NoKeyChar (b ++ cs) := by
  cases b with
  | nil => exact h
  | cons c b =>
      have hc := hb c List.mem_cons_self
      simp only [isBlank, Bool.or_eq_true, beq_iff_eq] at hc
      apply noKeyChar_cons
      rcases hc with rfl | rfl <;> decide

theorem readKeyPart_append {s : String} {cs : List Char} (h : KeyPart s cs) {tail : List Char}
    (htail : NoKeyChar tail) : readKeyPart (cs ++ tail) = some (s, tail) := by
  cases h with
  | bare hne hchars =>
      have hquote : ∀ quote ∈ ['"', '\''], ∀ rest, cs ++ tail ≠ quote :: rest := by
        intro quote hquote rest heq
        obtain ⟨c, cs, rfl⟩ := List.exists_cons_of_ne_nil hne
        obtain ⟨rfl, -⟩ := List.cons.inj heq
        have hc := hchars c List.mem_cons_self
        simp only [List.mem_cons, List.not_mem_nil, or_false] at hquote
        rcases hquote with rfl | rfl <;> exact absurd hc (by decide)
      rw [readKeyPart]
      case x_1 => exact hquote '"' (by decide)
      case x_2 => exact hquote '\'' (by decide)
      rw [takeWhile_run_append hchars htail, dropWhile_run_append hchars htail]
      simp [hne]
  | quoted hquoted =>
      obtain ⟨quote, inner, rfl, hquote, hread⟩ := readLine_append hquoted tail
      simp only [List.mem_cons, List.not_mem_nil, or_false] at hquote
      rcases hquote with rfl | rfl <;> exact hread

/-- A part of a key starts with a character that shows. -/
theorem KeyPart.starts {s : String} {cs : List Char} (h : KeyPart s cs) :
    ∃ c rest, cs = c :: rest ∧ (isKeyChar c = true ∨ c ∈ ['"', '\'']) := by
  cases h with
  | bare hne hchars =>
      obtain ⟨c, rest, rfl⟩ := List.exists_cons_of_ne_nil hne
      exact ⟨c, rest, rfl, .inl (hchars c List.mem_cons_self)⟩
  | quoted hquoted =>
      obtain ⟨quote, inner, rfl, hquote, -⟩ := readLine_append hquoted []
      exact ⟨quote, inner, rfl, .inr hquote⟩

theorem not_of_key_start {c d : Char} (hc : isKeyChar c = true ∨ c ∈ ['"', '\''])
    (hd : isKeyChar d = false ∧ d ∉ ['"', '\'']) : c ≠ d := by
  rintro rfl
  rcases hc with hc | hc
  · rw [hd.1] at hc
    cases hc
  · exact hd.2 hc

theorem isBlank_of_key_start {c : Char} (hc : isKeyChar c = true ∨ c ∈ ['"', '\'']) :
    isBlank c = false := by
  have hspace := not_of_key_start (d := ' ') hc (by decide)
  have htab := not_of_key_start (d := '\t') hc (by decide)
  simp [isBlank, hspace, htab]

/-- After blanks, a key starts with its first part. -/
theorem KeyText.starts {parts : List String} {ks : List Char} (h : KeyText parts ks) :
    ∃ b c rest, ks = b ++ c :: rest ∧ Blanks b ∧ (isKeyChar c = true ∨ c ∈ ['"', '\'']) := by
  cases h with
  | last hb hpart _ | more hb hpart _ _ =>
      obtain ⟨c, rest, rfl, hc⟩ := hpart.starts
      exact ⟨_, c, _, rfl, hb, hc⟩

theorem KeyPart.skip {s : String} {b cs : List Char} (hb : Blanks b) (h : KeyPart s cs)
    (rest : List Char) : skipBlanks (b ++ (cs ++ rest)) = cs ++ rest := by
  obtain ⟨c, inner, rfl, hc⟩ := h.starts
  exact skipBlanks_to hb (isBlank_of_key_start hc) _

theorem readKey_skipBlanks (cs : List Char) : readKey (skipBlanks cs) = readKey cs := by
  show readKeyParts (78 + 1) (skipBlanks cs) = readKeyParts (78 + 1) cs
  unfold readKeyParts
  rw [skipBlanks_skipBlanks]

theorem readKeyParts_append {parts : List String} {ks : List Char} (h : KeyText parts ks)
    {limit : ℕ} (hlimit : parts.length ≤ limit) {c : Char} (hc : c = '=' ∨ c = ']')
    (tail : List Char) : readKeyParts limit (ks ++ c :: tail) = some (parts, c :: tail) := by
  induction h generalizing limit with
  | @last s b cs b' hb hpart hb' =>
      obtain ⟨limit, rfl⟩ := Nat.exists_eq_succ_of_ne_zero (Nat.ne_zero_of_lt hlimit)
      have hend : isKeyChar c = false ∧ isBlank c = false ∧ c ≠ '.' := by
        rcases hc with rfl | rfl <;> decide
      have hskip := hpart.skip hb (b' ++ c :: tail)
      have hread := readKeyPart_append hpart (noKeyChar_blanks hb' (noKeyChar_cons hend.1 tail))
      have hskip' := skipBlanks_to hb' hend.2.1 tail
      simp [readKeyParts, hskip, hread, hskip', hend.2.2]
  | @more s parts b cs b' rest hb hpart hb' _ ih =>
      obtain ⟨limit, rfl⟩ := Nat.exists_eq_succ_of_ne_zero (Nat.ne_zero_of_lt hlimit)
      have hpoint : isKeyChar '.' = false ∧ isBlank '.' = false := by decide
      have hskip := hpart.skip hb (b' ++ '.' :: (rest ++ c :: tail))
      have hread := readKeyPart_append hpart (noKeyChar_blanks hb'
        (noKeyChar_cons hpoint.1 (rest ++ c :: tail)))
      have hskip' := skipBlanks_to hb' hpoint.2 (rest ++ c :: tail)
      have hothers := ih (Nat.le_of_succ_le_succ hlimit)
      simp [readKeyParts, hskip, hread, hskip', hothers]

end GrowthCurve.Toml
