import Mathlib
import GrowthCurve.Proofs.Toml.Assembly
import GrowthCurve.Proofs.Toml.Numerals

/-!
# Every TOML text is read

A text that the grammar allows for a table is read as this table: value by
value, line by line, and then the tables are put together.
-/

namespace GrowthCurve.Toml

open Text

/-! ## Pairs -/

theorem pair?_append (p : Pair) : pair? (p.path ++ [p.key]) p.value = some p := by
  unfold pair?
  rw [List.getLast?_concat, List.dropLast_concat]
  rfl

/-- A key and its value, up to what follows the value. -/
theorem readPair_append {item : Reader Document} {p : Pair} {ks b cs tail : List Char}
    (hkey : KeyText (p.path ++ [p.key]) ks) (hshort : p.path.length < nestingLimit)
    (hb : Blanks b) {c : Char} {rest : List Char} (hcs : cs = c :: rest) (hc : isBlank c = false)
    (hvalue : item (cs ++ tail) = some (p.value, tail)) :
    readPair item (ks ++ '=' :: (b ++ (cs ++ tail))) = some (p, tail) := by
  subst hcs
  have hlimit : (p.path ++ [p.key]).length ≤ nestingLimit := by simpa using hshort
  have hread : readKey (ks ++ '=' :: (b ++ (c :: rest ++ tail))) =
      some (p.path ++ [p.key], '=' :: (b ++ (c :: rest ++ tail))) :=
    readKeyParts_append hkey hlimit (.inl rfl) _
  have hskip := skipBlanks_to hb hc (rest ++ tail)
  rw [List.cons_append] at hread hvalue
  simp [readPair, hread, hskip, hvalue, pair?_append]

/-! ## Values -/

/-- A character with which a value may start. -/
structure Opens (c : Char) : Prop where
  not_blank : isBlank c = false
  not_line_end : c ≠ '\n' ∧ c ≠ '\r'
  not_comment : c ≠ '#'
  not_list_end : c ≠ ']'

theorem opens_of_number_start {c : Char}
    (h : isDigitOf 10 c = true ∨ c ∈ ['-', '+', 'i', 'n']) : Opens c := by
  have hne : ∀ d, (isDigitOf 10 d = false ∧ d ∉ ['-', '+', 'i', 'n']) → c ≠ d :=
    fun d hd => ne_of_number_start h hd
  have hblank : isBlank c = false := by
    have hspace := hne ' ' (by decide)
    have htab := hne '\t' (by decide)
    simp [isBlank, hspace, htab]
  exact ⟨hblank, ⟨hne _ (by decide), hne _ (by decide)⟩, hne _ (by decide), hne _ (by decide)⟩

theorem ScalarText.starts {d : Document} {cs : List Char} (h : ScalarText d cs) :
    ∃ c rest, cs = c :: rest ∧ Opens c := by
  cases h with
  | yes | no => exact ⟨_, _, rfl, by decide, by decide, by decide, by decide⟩
  | text hquoted =>
      obtain ⟨quote, inner, rfl, hquote, -⟩ := readLine_append hquoted []
      refine ⟨quote, inner, rfl, ?_⟩
      simp only [List.mem_cons, List.not_mem_nil, or_false] at hquote
      rcases hquote with rfl | rfl
      · exact ⟨by decide, by decide, by decide, by decide⟩
      · exact ⟨by decide, by decide, by decide, by decide⟩
  | number hnumber =>
      obtain ⟨c, rest, rfl, hc⟩ := hnumber.starts
      exact ⟨c, rest, rfl, opens_of_number_start hc⟩

theorem readValue_number {c : Char} (hc : isDigitOf 10 c = true ∨ c ∈ ['-', '+', 'i', 'n'])
    (depth : ℕ) (rest : List Char) :
    readValue depth (c :: rest) = (readMoment (c :: rest) <|> readNumber (c :: rest)) := by
  unfold readValue
  split
  case h_9 => rfl
  all_goals
    rename_i heq
    exact absurd (List.cons.inj heq).1 (ne_of_number_start hc (by decide))

/-- A value without parts is read up to where a value may end. -/
theorem ScalarText.read {d : Document} {cs : List Char} (h : ScalarText d cs) (depth : ℕ)
    {tail : List Char} (htail : EndsValue tail) :
    readValue depth (cs ++ tail) = some (d, tail) := by
  cases h with
  | yes => cases depth <;> rfl
  | no => cases depth <;> rfl
  | text hquoted =>
      have hnext : tail.head? ≠ some '"' ∧ tail.head? ≠ some '\'' := by
        constructor
        · exact fun h => absurd (htail.headIn '"' h) (by decide)
        · exact fun h => absurd (htail.headIn '\'' h) (by decide)
      obtain ⟨quote, inner, rfl, hquote, hread⟩ := readText_append hquoted hnext
      have hvalue : readValue depth (quote :: (inner ++ tail)) =
          (readText quote (inner ++ tail)).map fun r => (.text r.1, r.2) := by
        simp only [List.mem_cons, List.not_mem_nil, or_false] at hquote
        rcases hquote with rfl | rfl
        · cases depth <;> rfl
        · cases depth <;> rfl
      rw [List.cons_append, hvalue, hread]
      rfl
  | number hnumber =>
      obtain ⟨hmoment, hread⟩ := hnumber.read htail.headIn
      obtain ⟨c, rest, rfl, hc⟩ := hnumber.starts
      rw [List.cons_append] at hmoment hread ⊢
      rw [readValue_number hc, hmoment]
      exact hread

/-- Whatever stands for a value starts with a character that shows. -/
theorem Writes.starts {n : ℕ} {d : Document} {cs : List Char}
    (h : Writes nestingLimit n (.value d) cs) :
    ∃ c rest, cs = c :: rest ∧ Opens c := by
  cases h with
  | scalar htext => exact htext.starts
  | list | emptyTable | table => exact ⟨_, _, rfl, by decide, by decide, by decide, by decide⟩

/-- What is found in a piece of text, whatever follows it, with fuel for all items or pairs. -/
def Found (n : ℕ) : Part → List Char → Prop
  | .value d, cs => ∀ depth ≥ n, ∀ tail, EndsValue tail →
      readValue depth (cs ++ tail) = some (d, tail)
  | .items ds, cs => ∀ depth ≥ n, ∀ fuel > cs.length, ∀ tail,
      readItems (readValue depth) fuel (cs ++ ']' :: tail) = some (ds, tail)
  | .pairs ps, cs => ∀ depth ≥ n, ∀ fuel ≥ ps.length, ∀ tail,
      readInline (readValue depth) fuel (cs ++ '\x7d' :: tail) = some (ps, tail)

theorem Opens.skip {c : Char} (h : Opens c) {sp : List Char} (hsp : Space sp)
    (rest : List Char) : skipSpace? false (sp ++ c :: rest) = some (c :: rest) :=
  skipSpace?_append hsp h.not_blank h.not_line_end h.not_comment rest

theorem skipSpace?_mark {sp : List Char} (hsp : Space sp) {c : Char} (hc : c = ']' ∨ c = ',')
    (rest : List Char) : skipSpace? false (sp ++ c :: rest) = some (c :: rest) := by
  have hmark : isBlank c = false ∧ (c ≠ '\n' ∧ c ≠ '\r') ∧ c ≠ '#' := by
    rcases hc with rfl | rfl <;> decide
  exact skipSpace?_append hsp hmark.1 hmark.2.1 hmark.2.2 rest

theorem found_list {n : ℕ} {ds : List Document} {cs : List Char} (h : Found n (.items ds) cs) :
    Found (n + 1) (.value (.list ds .loose)) ('[' :: (cs ++ [']'])) := by
  intro depth hdepth tail _
  obtain ⟨depth, rfl⟩ := Nat.exists_eq_succ_of_ne_zero (Nat.ne_zero_of_lt hdepth)
  have hitems := h depth (Nat.le_of_succ_le_succ hdepth) ((cs ++ ']' :: tail).length + 1)
    (by simp only [List.length_append]; omega) tail
  have happend : ('[' :: (cs ++ [']'])) ++ tail = '[' :: (cs ++ ']' :: tail) := by simp
  rw [happend]
  show (readItems (readValue depth) _ _).map _ = _
  rw [hitems]
  rfl

theorem found_emptyTable {n : ℕ} {b : List Char} (hb : Blanks b) :
    Found (n + 1) (.value (.ofEntries [])) ('\x7b' :: (b ++ ['\x7d'])) := by
  intro depth hdepth tail _
  obtain ⟨depth, rfl⟩ := Nat.exists_eq_succ_of_ne_zero (Nat.ne_zero_of_lt hdepth)
  have hskip := skipBlanks_to hb (show isBlank '\x7d' = false by decide) tail
  simp [readValue, hskip]

/-- Every pair has a mark between key and value. -/
theorem Writes.length_pairs {n : ℕ} {ps : List Pair} {cs : List Char}
    (h : Writes nestingLimit n (.pairs ps) cs) (tail : List Char) :
    ps.length ≤ (skipBlanks (cs ++ tail)).length := by
  have hmark : isBlank '=' = false := by decide
  -- the induction is over all parts, of which only the pairs are of use
  generalize hpart : Part.pairs ps = part at h
  induction h generalizing ps with
  | @lastPair n p ks b cs b' _ _ _ _ _ _ =>
      obtain rfl := Part.pairs.inj hpart
      rw [List.append_assoc, List.cons_append, skipBlanks_append_cons hmark]
      simp only [List.length_append, List.length_cons, List.length_nil]
      omega
  | @pair n p ps' ks b cs b' rest _ _ _ _ _ _ _ ih =>
      obtain rfl := Part.pairs.inj hpart
      have hothers := ih rfl
      have hskip : (skipBlanks (rest ++ tail)).length ≤ (rest ++ tail).length :=
        List.length_dropWhile_le _ _
      rw [List.append_assoc, List.cons_append, skipBlanks_append_cons hmark]
      simp only [List.length_append, List.length_cons] at hskip ⊢
      omega
  | _ => cases hpart

theorem Writes.starts_pairs {n : ℕ} {ps : List Pair} {cs : List Char}
    (h : Writes nestingLimit n (.pairs ps) cs) (tail : List Char) :
    ∃ c rest, skipBlanks (cs ++ tail) = c :: rest ∧ (isKeyChar c = true ∨ c ∈ ['"', '\'']) := by
  cases h with
  | lastPair hkey | pair hkey =>
      obtain ⟨b, c, rest, rfl, hb, hc⟩ := hkey.starts
      simp only [List.append_assoc, List.cons_append]
      exact ⟨c, _, skipBlanks_to hb (isBlank_of_key_start hc) _, hc⟩

theorem readInline_skipBlanks (item : Reader Document) (fuel : ℕ) (cs : List Char) :
    readInline item fuel (skipBlanks cs) = readInline item fuel cs := by
  cases fuel with
  | zero => rfl
  | succ fuel =>
      unfold readInline readPair
      rw [readKey_skipBlanks]

/-- Between its braces, a table that is not empty is read pair by pair. -/
theorem readValue_table {depth : ℕ} {cs : List Char} {ps : List Pair} {tail : List Char}
    (hstarts : ∃ c rest, skipBlanks cs = c :: rest ∧ (isKeyChar c = true ∨ c ∈ ['"', '\'']))
    (hread : readInline (readValue depth) ((skipBlanks cs).length + 1) cs = some (ps, tail)) :
    readValue (depth + 1) ('\x7b' :: cs) = (assemble? ps []).map fun d => (d, tail) := by
  obtain ⟨c, rest, hskip, hc⟩ := hstarts
  have hne : c ≠ '\x7d' := not_of_key_start hc (by decide)
  rw [← readInline_skipBlanks, hskip] at hread
  rw [readValue, hskip]
  split
  case h_1 heq => exact absurd (List.cons.inj heq).1 hne
  case h_2 =>
    rw [hread]
    exact (Option.map_eq_bind ..).symm

theorem found_table {n : ℕ} {ps : List Pair} {es : Table} {cs : List Char}
    (hinner : Writes nestingLimit n (.pairs ps) cs) (h : Found n (.pairs ps) cs)
    (hps : Pairs ps es) :
    Found (n + 1) (.value (.ofEntries es)) ('\x7b' :: (cs ++ ['\x7d'])) := by
  intro depth hdepth tail _
  obtain ⟨depth, rfl⟩ := Nat.exists_eq_succ_of_ne_zero (Nat.ne_zero_of_lt hdepth)
  have hlength := hinner.length_pairs ('\x7d' :: tail)
  have hread := h depth (Nat.le_of_succ_le_succ hdepth)
    ((skipBlanks (cs ++ '\x7d' :: tail)).length + 1) (by omega) tail
  have happend : ('\x7b' :: (cs ++ ['\x7d'])) ++ tail = '\x7b' :: (cs ++ '\x7d' :: tail) := by
    simp
  have hassembled := assemble?_eq hps .nil (fun _ _ => List.not_mem_nil)
  rw [List.append_nil] at hassembled
  rw [happend, readValue_table (hinner.starts_pairs _) hread, hassembled]
  rfl

theorem found_lastPair {n : ℕ} {p : Pair} {ks b cs b' : List Char}
    (hkey : KeyText (p.path ++ [p.key]) ks) (hshort : p.path.length < nestingLimit)
    (hb : Blanks b) {c : Char} {inner : List Char} (hcs : cs = c :: inner) (hc : Opens c)
    (h : Found n (.value p.value) cs) (hb' : Blanks b') :
    Found n (.pairs [p]) (ks ++ '=' :: (b ++ (cs ++ b'))) := by
  intro depth hdepth fuel hfuel tail
  obtain ⟨fuel, rfl⟩ := Nat.exists_eq_succ_of_ne_zero (Nat.ne_zero_of_lt hfuel)
  have hvalue := h depth hdepth (b' ++ '\x7d' :: tail)
    (endsValue_blanks hb' (endsValue_mark (by decide) tail))
  have hread := readPair_append hkey hshort hb hcs hc.not_blank hvalue
  have hskip := skipBlanks_to hb' (show isBlank '\x7d' = false by decide) tail
  simp [readInline, hread, hskip]

theorem found_pair {n : ℕ} {p : Pair} {ps : List Pair} {ks b cs b' rest : List Char}
    (hkey : KeyText (p.path ++ [p.key]) ks) (hshort : p.path.length < nestingLimit)
    (hb : Blanks b) {c : Char} {inner : List Char} (hcs : cs = c :: inner) (hc : Opens c)
    (h : Found n (.value p.value) cs) (hb' : Blanks b') (hothers : Found n (.pairs ps) rest) :
    Found n (.pairs (p :: ps)) (ks ++ '=' :: (b ++ (cs ++ (b' ++ ',' :: rest)))) := by
  intro depth hdepth fuel hfuel tail
  obtain ⟨fuel, rfl⟩ := Nat.exists_eq_succ_of_ne_zero (Nat.ne_zero_of_lt hfuel)
  have hvalue := h depth hdepth (b' ++ ',' :: (rest ++ '\x7d' :: tail))
    (endsValue_blanks hb' (endsValue_mark (by decide) _))
  have hread := readPair_append hkey hshort hb hcs hc.not_blank hvalue
  have hskip := skipBlanks_to hb' (show isBlank ',' = false by decide) (rest ++ '\x7d' :: tail)
  have hrest := hothers depth hdepth fuel (Nat.le_of_succ_le_succ hfuel) tail
  simp [readInline, hread, hskip, hrest]

theorem found_noItem {n : ℕ} {cs : List Char} (hcs : Space cs) : Found n (.items []) cs := by
  intro depth _ fuel hfuel tail
  obtain ⟨fuel, rfl⟩ := Nat.exists_eq_succ_of_ne_zero (Nat.ne_zero_of_lt hfuel)
  have hskip := skipSpace?_mark hcs (.inl rfl) tail
  simp [readItems, hskip]

theorem found_lastItem {n : ℕ} {d : Document} {sp cs sp' : List Char} (hsp : Space sp)
    {c : Char} {inner : List Char} (hcs : cs = c :: inner) (hc : Opens c)
    (h : Found n (.value d) cs) (hsp' : Space sp') :
    Found n (.items [d]) (sp ++ (cs ++ sp')) := by
  subst hcs
  intro depth hdepth fuel hfuel tail
  obtain ⟨fuel, rfl⟩ := Nat.exists_eq_succ_of_ne_zero (Nat.ne_zero_of_lt hfuel)
  have hskip := hc.skip hsp (inner ++ (sp' ++ ']' :: tail))
  have hvalue := h depth hdepth (sp' ++ ']' :: tail)
    (endsValue_space hsp' (endsValue_mark (by decide) tail))
  have hskip' := skipSpace?_mark hsp' (.inl rfl) tail
  rw [List.cons_append] at hvalue
  simp [readItems, hskip, hc.not_list_end, hvalue, hskip']

theorem found_item {n : ℕ} {d : Document} {ds : List Document} {sp cs sp' rest : List Char}
    (hsp : Space sp) {c : Char} {inner : List Char} (hcs : cs = c :: inner) (hc : Opens c)
    (h : Found n (.value d) cs) (hsp' : Space sp') (hothers : Found n (.items ds) rest) :
    Found n (.items (d :: ds)) (sp ++ (cs ++ (sp' ++ ',' :: rest))) := by
  subst hcs
  intro depth hdepth fuel hfuel tail
  simp only [List.length_append, List.length_cons] at hfuel
  obtain ⟨fuel, rfl⟩ := Nat.exists_eq_succ_of_ne_zero (Nat.ne_zero_of_lt hfuel)
  have hskip := hc.skip hsp (inner ++ (sp' ++ ',' :: (rest ++ ']' :: tail)))
  have hvalue := h depth hdepth (sp' ++ ',' :: (rest ++ ']' :: tail))
    (endsValue_space hsp' (endsValue_mark (by decide) _))
  have hskip' := skipSpace?_mark hsp' (.inr rfl) (rest ++ ']' :: tail)
  have hrest := hothers depth hdepth fuel (by omega) tail
  rw [List.cons_append] at hvalue
  simp [readItems, hskip, hc.not_list_end, hvalue, hskip', hrest]

theorem Writes.found {n : ℕ} {part : Part} {cs : List Char} (h : Writes nestingLimit n part cs) :
    Found n part cs := by
  -- each bracket takes one of the depth, each item and each pair one of the fuel
  induction h with
  | scalar htext => exact fun depth _ tail htail => htext.read depth htail
  | list _ ih => exact found_list ih
  | emptyTable hb => exact found_emptyTable hb
  | table hinner hgives ih => exact found_table hinner ih hgives
  | noItem hspace => exact found_noItem hspace
  | lastItem hspace hvalue hspace' ih =>
      obtain ⟨c, inner, hcs, hc⟩ := hvalue.starts
      exact found_lastItem hspace hcs hc ih hspace'
  | item hspace hvalue hspace' _ ih ihs =>
      obtain ⟨c, inner, hcs, hc⟩ := hvalue.starts
      exact found_item hspace hcs hc ih hspace' ihs
  | lastPair hkey hshort hb hvalue hb' ih =>
      obtain ⟨c, inner, hcs, hc⟩ := hvalue.starts
      exact found_lastPair hkey hshort hb hcs hc ih hb'
  | pair hkey hshort hb hvalue hb' _ ih ihs =>
      obtain ⟨c, inner, hcs, hc⟩ := hvalue.starts
      exact found_pair hkey hshort hb hcs hc ih hb' ihs

/-! ## Lines -/

/-- Behind a statement, a line may go on with a comment. -/
theorem finishLine?_eq {b comment rest : List Char} (hb : Blanks b) (hcomment : Comment comment)
    (hrest : ∀ c, rest.head? = some c → c = '\n' ∨ c = '\r') :
    finishLine? (b ++ (comment ++ rest)) =
      if rest.isEmpty then some [] else afterLineEnd? rest := by
  have hprintable : ∀ c, rest.head? = some c → isPrintable c = false := by
    intro c hc
    rcases hrest c hc with rfl | rfl <;> decide
  have hblank : skipBlanks rest = rest := by
    cases rest with
    | nil => rfl
    | cons c rest =>
        apply skipBlanks_cons
        rcases hrest c rfl with rfl | rfl <;> decide
  unfold finishLine?
  rw [skipBlanks_append hb]
  cases hcomment with
  | none =>
      rw [List.nil_append, hblank]
      split
      case h_1 comment =>
        rcases hrest '#' rfl with h | h <;> exact absurd h (by decide)
      case h_2 => rfl
  | text hchars =>
      rw [List.cons_append, skipBlanks_cons (by decide)]
      simp only [dropWhile_run_append hchars hprintable]

theorem finishLine?_end {b comment : List Char} (hb : Blanks b) (hcomment : Comment comment) :
    finishLine? (b ++ comment) = some [] := by
  have hnone : ∀ c, ([] : List Char).head? = some c → c = '\n' ∨ c = '\r' := nofun
  have hfinish := finishLine?_eq hb hcomment hnone
  rwa [List.append_nil] at hfinish

theorem finishLine?_line {b comment e : List Char} (hb : Blanks b) (hcomment : Comment comment)
    (he : LineEnd e) (rest : List Char) :
    finishLine? (b ++ (comment ++ (e ++ rest))) = some rest := by
  cases he with
  | feed =>
      rw [finishLine?_eq hb hcomment (by rintro c ⟨⟩; exact .inl rfl)]
      rfl
  | returnFeed =>
      rw [finishLine?_eq hb hcomment (by rintro c ⟨⟩; exact .inr rfl)]
      rfl

theorem readPair_skipBlanks (item : Reader Document) (cs : List Char) :
    readPair item (skipBlanks cs) = readPair item cs := by
  unfold readPair
  rw [readKey_skipBlanks]

theorem StatementText.length_pos {s : Statement} {cs : List Char}
    (h : StatementText nestingLimit s cs) : 0 < cs.length := by
  cases h with
  | pair | header => simp

theorem readStatement_pair {c : Char} (hc : c ≠ '[') (rest : List Char) :
    readStatement (c :: rest) = (readPair (readValue nestingLimit) (c :: rest)).bind fun r =>
      (finishLine? r.2).map fun after => (.pair r.1, after) := by
  unfold readStatement
  split
  case _ heq => exact absurd (List.cons.inj heq).1 hc
  case _ =>
    cases readPair (readValue nestingLimit) (c :: rest) with
    | none => rfl
    | some r => exact (Option.map_eq_bind ..).symm

theorem readHeader_append {path : List String} {key : String} {ks : List Char}
    (hkeys : KeyText (path ++ [key]) ks) (hshort : path.length < nestingLimit)
    (tail : List Char) :
    readHeader (ks ++ ']' :: tail) = some (.header false path key, tail) := by
  have hlimit : (path ++ [key]).length ≤ nestingLimit := by simpa using hshort
  have hread : readKey (ks ++ ']' :: tail) = some (path ++ [key], ']' :: tail) :=
    readKeyParts_append hkeys hlimit (.inr rfl) tail
  have hstart : ∀ rest, ks ++ ']' :: tail ≠ '[' :: rest := by
    intro rest heq
    obtain ⟨b, c, inner, rfl, hb, hc⟩ := hkeys.starts
    cases b with
    | nil => exact not_of_key_start hc (by decide) (List.cons.inj heq).1
    | cons d b =>
        obtain rfl := (List.cons.inj heq).1
        exact absurd (hb '[' List.mem_cons_self) (by decide)
  unfold readHeader
  split
  case _ heq => exact absurd heq (hstart _)
  case _ => simp [hread]

/-- A statement starts with a character that shows, and what follows it is left. -/
theorem readStatement_append {s : Statement} {cs : List Char} (h : StatementText nestingLimit s cs)
    {tail after : List Char} (htail : EndsValue tail) (hfinish : finishLine? tail = some after) :
    ∃ c rest, skipBlanks (cs ++ tail) = c :: rest ∧ c ∉ ['#', '\n', '\r'] ∧
      readStatement (c :: rest) = some (s, after) := by
  cases h with
  | @pair p ks b cs hkey hshort hb hvalue =>
      obtain ⟨d, inner, hcs, hd⟩ := hvalue.starts
      have hread := readPair_append hkey hshort hb hcs hd.not_blank
        (hvalue.found nestingLimit le_rfl tail htail)
      rw [← readPair_skipBlanks] at hread
      obtain ⟨b', c, rest, rfl, hb', hc⟩ := hkey.starts
      simp only [List.append_assoc, List.cons_append] at hread ⊢
      have hskip := skipBlanks_to hb' (isBlank_of_key_start hc) (rest ++ '=' :: (b ++ (cs ++ tail)))
      rw [hskip] at hread ⊢
      refine ⟨c, _, rfl, ?_, ?_⟩
      · have hfeed := not_of_key_start (d := '\n') hc (by decide)
        have hreturn := not_of_key_start (d := '\r') hc (by decide)
        have hcomment := not_of_key_start (d := '#') hc (by decide)
        simp [hfeed, hreturn, hcomment]
      · rw [readStatement_pair (not_of_key_start hc (by decide)), hread, Option.bind_some, hfinish]
        rfl
  | @header path key ks hkeys hshort =>
      have happend : ('[' :: (ks ++ [']'])) ++ tail = '[' :: (ks ++ ']' :: tail) := by simp
      rw [happend]
      refine ⟨'[', _, skipBlanks_cons (by decide) _, by decide, ?_⟩
      show (readHeader (ks ++ ']' :: tail) >>= _) = _
      rw [readHeader_append hkeys hshort]
      show (finishLine? tail >>= _) = _
      rw [hfinish]
      rfl

/-- A line without a statement is passed over. -/
theorem readStatements_skip {b cs after : List Char} (hb : Blanks b)
    (hcs : ∃ c rest, cs = c :: rest ∧ c ∈ ['#', '\n', '\r'])
    (hfinish : finishLine? cs = some after) (fuel : ℕ) :
    readStatements (fuel + 1) (b ++ cs) = readStatements fuel after := by
  obtain ⟨c, rest, rfl, hc⟩ := hcs
  have hmark : c = '#' ∨ c = '\n' ∨ c = '\r' := by simpa using hc
  have hblank : isBlank c = false := by
    rcases hmark with rfl | rfl | rfl <;> decide
  rw [readStatements, skipBlanks_to hb hblank]
  simp only [if_pos hmark, hfinish]
  rfl

/-- A line with a statement is read, and then the lines after it. -/
theorem readStatements_line {b cs after : List Char} {s : Statement} (hb : Blanks b)
    (h : ∃ c rest, skipBlanks cs = c :: rest ∧ c ∉ ['#', '\n', '\r'] ∧
      readStatement (c :: rest) = some (s, after)) (fuel : ℕ) :
    readStatements (fuel + 1) (b ++ cs) = (readStatements fuel after).map (s :: ·) := by
  obtain ⟨c, rest, hskip, hc, hread⟩ := h
  have hmark : ¬ (c = '#' ∨ c = '\n' ∨ c = '\r') := by simpa using hc
  rw [readStatements, skipBlanks_append hb, hskip]
  simp only [if_neg hmark, hread]
  exact (Option.map_eq_bind ..).symm

theorem readStatements_nil {fuel : ℕ} (h : 0 < fuel) : readStatements fuel [] = some [] := by
  obtain ⟨fuel, rfl⟩ := Nat.exists_eq_succ_of_ne_zero h.ne'
  rfl

theorem LineEnd.exists_cons {e : List Char} (h : LineEnd e) :
    ∃ c rest, e = c :: rest ∧ c ∈ ['#', '\n', '\r'] := by
  cases h with
  | feed | returnFeed => exact ⟨_, _, rfl, by decide⟩

/-- A line without a statement starts with its comment, or it ends at once. -/
theorem Comment.starts {comment e : List Char} (h : Comment comment) (he : LineEnd e)
    (rest : List Char) :
    ∃ c tail, comment ++ (e ++ rest) = c :: tail ∧ c ∈ ['#', '\n', '\r'] := by
  obtain ⟨c, tail, rfl, hc⟩ := he.exists_cons
  cases h with
  | none => exact ⟨c, _, rfl, hc⟩
  | text => exact ⟨'#', _, rfl, by decide⟩

theorem readStatements_append {ss : List Statement} {cs : List Char}
    (h : LinesText nestingLimit ss cs) {fuel : ℕ} (hfuel : cs.length < fuel) :
    readStatements fuel cs = some ss := by
  induction h generalizing fuel with
  | @done b comment hb hcomment =>
      obtain ⟨fuel, rfl⟩ := Nat.exists_eq_succ_of_ne_zero (Nat.ne_zero_of_lt hfuel)
      have hfinish := finishLine?_end blanks_nil hcomment
      cases hcomment with
      | none =>
          rw [List.append_nil, readStatements, skipBlanks_all hb]
      | text =>
          rw [readStatements_skip hb ⟨_, _, rfl, by decide⟩ hfinish]
          apply readStatements_nil
          simp only [List.length_append, List.length_cons] at hfuel
          omega
  | @skip ss b comment e cs hb hcomment he _ ih =>
      obtain ⟨fuel, rfl⟩ := Nat.exists_eq_succ_of_ne_zero (Nat.ne_zero_of_lt hfuel)
      have hfinish := finishLine?_line blanks_nil hcomment he cs
      rw [readStatements_skip hb (hcomment.starts he cs) hfinish]
      obtain ⟨c, e, rfl, -⟩ := he.exists_cons
      simp only [List.length_append, List.length_cons] at hfuel
      exact ih (by omega)
  | @last s b cs b' comment hb hs hb' hcomment =>
      obtain ⟨fuel, rfl⟩ := Nat.exists_eq_succ_of_ne_zero (Nat.ne_zero_of_lt hfuel)
      have htail : EndsValue (b' ++ comment) := by
        have hends := endsValue_comment hcomment (.nil blanks_nil)
        rw [List.append_nil] at hends
        exact endsValue_blanks hb' hends
      have hread := readStatement_append hs htail (finishLine?_end hb' hcomment)
      rw [readStatements_line hb hread, readStatements_nil]
      · rfl
      · have hpos := hs.length_pos
        simp only [List.length_append] at hfuel
        omega
  | @line s ss b cs b' comment e rest hb hs hb' hcomment he _ ih =>
      obtain ⟨fuel, rfl⟩ := Nat.exists_eq_succ_of_ne_zero (Nat.ne_zero_of_lt hfuel)
      have htail : EndsValue (b' ++ (comment ++ (e ++ rest))) :=
        endsValue_blanks hb' (endsValue_comment hcomment (endsValue_lineEnd he rest))
      have hread := readStatement_append hs htail (finishLine?_line hb' hcomment he rest)
      obtain ⟨c, e, rfl, -⟩ := he.exists_cons
      simp only [List.length_append, List.length_cons] at hfuel
      rw [readStatements_line hb hread, ih (by omega)]
      rfl

/-! ## Whole texts -/

theorem sections_pairs (ps : List Pair) (ss : List Statement) :
    sections (ps.map .pair ++ ss) = (ps ++ (sections ss).1, (sections ss).2) := by
  induction ps with
  | nil => rfl
  | cons p rest ih =>
      rw [List.map_cons, List.cons_append, sections, ih]
      rfl

theorem sections_flatMap (ss : List Section) :
    sections (ss.flatMap Section.statements) = ([], ss) := by
  induction ss with
  | nil => rfl
  | cons s rest ih =>
      rw [List.flatMap_cons]
      show sections (.header s.repeated s.path s.key :: (s.pairs.map .pair ++ _)) = _
      rw [sections, sections_pairs, ih, List.append_nil]

/-- No line starts with a byte order mark. -/
theorem dropMark_of_lines {ss : List Statement} {cs : List Char}
    (h : LinesText nestingLimit ss cs) :
    dropMark cs = cs := by
  cases cs with
  | nil => rfl
  | cons c rest =>
      by_cases hc : c.toNat = 0xFEFF
      · -- such a line would have been read, but no statement starts with this character
        obtain rfl : c = '\ufeff' := Char.toNat_inj.mp hc
        have hblank : isBlank '\ufeff' = false := by decide
        have hpart : readKeyPart ('\ufeff' :: rest) = none := rfl
        have hkey : readKey ('\ufeff' :: rest) = none := by
          show (readKeyPart (skipBlanks ('\ufeff' :: rest)) >>= _) = none
          rw [skipBlanks_cons hblank, hpart]
          rfl
        have hpair : readPair (readValue nestingLimit) ('\ufeff' :: rest) = none := by
          unfold readPair
          rw [hkey]
          rfl
        have hread := readStatements_append h (Nat.lt_succ_self _)
        rw [readStatements, skipBlanks_cons hblank] at hread
        simp only [readStatement_pair (show '\ufeff' ≠ '[' by decide), hpair] at hread
        cases hread
      · exact if_neg hc

theorem read?_of_isToml {d : Document} {text : String} (h : IsToml nestingLimit d text) :
    read? text.toList = some d := by
  obtain ⟨ps, ss, own, inner, hlines, hps, hss, hapart, rfl⟩ := h
  have hread := readStatements_append hlines (Nat.lt_succ_self _)
  have hsections : sections (ps.map .pair ++ ss.flatMap Section.statements) = (ps, ss) := by
    rw [sections_pairs, sections_flatMap, List.append_nil]
  unfold read?
  rw [dropMark_of_lines hlines, hread]
  show assemble? (sections _).1 (sections _).2 = _
  rw [hsections]
  exact assemble?_eq hps hss hapart

/-! ## Too deep -/

/-- So many lists inside each other. -/
def nested : ℕ → Document
  | 0 => .truth true
  | n + 1 => .list [nested n] .loose

def nestedChars : ℕ → List Char
  | 0 => ['t', 'r', 'u', 'e']
  | n + 1 => '[' :: (nestedChars n ++ [']'])

def nestedText (n : ℕ) : String :=
  String.ofList ("x = ".toList ++ nestedChars n)

theorem writes_nested (limit n : ℕ) : Writes limit n (.value (nested n)) (nestedChars n) := by
  induction n with
  | zero => exact .scalar .yes
  | succ n ih =>
      have hitems := Writes.lastItem .nil ih .nil
      rw [List.nil_append, List.append_nil] at hitems
      exact .list hitems

theorem readValue_nested {depth n : ℕ} (h : depth < n) (tail : List Char) :
    readValue depth (nestedChars n ++ tail) = none := by
  induction depth generalizing n tail with
  | zero =>
      obtain ⟨n, rfl⟩ := Nat.exists_eq_succ_of_ne_zero h.ne'
      rfl
  | succ depth ih =>
      obtain ⟨n, rfl⟩ := Nat.exists_eq_succ_of_ne_zero (Nat.ne_zero_of_lt h)
      have hinner := ih (Nat.lt_of_succ_lt_succ h) (']' :: tail)
      have happend : nestedChars (n + 1) ++ tail = '[' :: (nestedChars n ++ ']' :: tail) := by
        simp [nestedChars]
      obtain ⟨c, rest, hcs, hc⟩ := (writes_nested nestingLimit n).starts
      have hskip := hc.skip .nil (rest ++ ']' :: tail)
      rw [hcs, List.cons_append] at hinner happend
      rw [happend, readValue, List.length_cons]
      simp only [readItems]
      rw [List.nil_append] at hskip
      simp [hskip, hc.not_list_end, hinner]

theorem keyText_x : KeyText ["x"] ([] ++ (['x'] ++ [' '])) :=
  .last nofun (.bare (by decide) (List.forall_mem_singleton.mpr rfl))
    (List.forall_mem_singleton.mpr rfl)

theorem isToml_nestedText {n : ℕ} (h : 0 < n) :
    IsToml n (.ofEntries [("x", nested n)]) (nestedText n) := by
  have hstatement : StatementText n (.pair ⟨[], "x", nested n⟩)
      (([] ++ (['x'] ++ [' '])) ++ '=' :: ([' '] ++ nestedChars n)) :=
    .pair keyText_x h (List.forall_mem_singleton.mpr rfl) (writes_nested n n)
  have hlines : LinesText n [.pair ⟨[], "x", nested n⟩] _ :=
    .last blanks_nil hstatement blanks_nil .none
  refine ⟨[⟨[], "x", nested n⟩], [], _, [], ?_, .value .nil List.not_mem_nil, .nil,
    fun _ _ => List.not_mem_nil, rfl⟩
  unfold nestedText
  rw [String.toList_ofList]
  simpa using hlines

/-- A value that is nested deeper than the limit is refused. -/
theorem read?_nestedText {n : ℕ} (h : nestingLimit < n) : read? (nestedText n).toList = none := by
  have hkey : readKey ('x' :: ' ' :: '=' :: ' ' :: nestedChars n) =
      some (["x"], '=' :: ' ' :: nestedChars n) :=
    readKeyParts_append keyText_x (by decide) (.inl rfl) (' ' :: nestedChars n)
  have hvalue := readValue_nested h []
  have hskip : skipBlanks (' ' :: nestedChars n) = nestedChars n := by
    obtain ⟨c, rest, hcs, hc⟩ := (writes_nested nestingLimit n).starts
    rw [hcs]
    exact skipBlanks_to (b := [' ']) (List.forall_mem_singleton.mpr rfl) hc.not_blank rest
  have hpair : readPair (readValue nestingLimit) ('x' :: ' ' :: '=' :: ' ' :: nestedChars n) =
      none := by
    rw [List.append_nil] at hvalue
    unfold readPair
    rw [hkey]
    show (readValue nestingLimit (skipBlanks (' ' :: nestedChars n)) >>= _) = none
    rw [hskip, hvalue]
    rfl
  have hlines : ∀ fuel, readStatements fuel ('x' :: ' ' :: '=' :: ' ' :: nestedChars n) = none := by
    intro fuel
    cases fuel with
    | zero => rfl
    | succ fuel =>
        rw [readStatements, skipBlanks_cons (by decide)]
        simp only [readStatement_pair (show 'x' ≠ '[' by decide), hpair]
        rfl
  unfold read? nestedText
  rw [String.toList_ofList]
  show (readStatements _ ('x' :: ' ' :: '=' :: ' ' :: nestedChars n) >>= _) = none
  rw [hlines]
  rfl

end GrowthCurve.Toml
