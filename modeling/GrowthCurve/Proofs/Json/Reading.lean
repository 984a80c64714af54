import Mathlib
import GrowthCurve.Proofs.Document.Tables
import GrowthCurve.Proofs.Json.Grammar
import GrowthCurve.Proofs.Outcome
import GrowthCurve.Proofs.Text.Lines

/-!
# Every JSON text is read

A text that the grammar allows for a document is read as this document, and
reading stops right behind it. A number needs to know where it ends, so what
comes next must not go on with it.
-/

namespace GrowthCurve.Json

/-! ## Numbers -/

/-- A digit is not the next character. -/
def NoDigit (cs : List Char) : Prop :=
  ∀ c, cs.head? = some c → Decimal.isDigit c = false

/-- No number goes on with these characters. -/
structure Stops (cs : List Char) : Prop where
  digit : NoDigit cs
  point : cs.head? ≠ some '.'
  exponent : cs.head? ≠ some 'e' ∧ cs.head? ≠ some 'E'

theorem stops_nil : Stops [] :=
  ⟨nofun, nofun, nofun, nofun⟩

theorem stops_cons {c : Char} {cs : List Char} (hdigit : Decimal.isDigit c = false)
    (hother : c ≠ '.' ∧ c ≠ 'e' ∧ c ≠ 'E') : Stops (c :: cs) := by
  refine ⟨?_, by simpa using hother.1, by simpa using hother.2⟩
  intro d hd
  obtain rfl := Option.some.inj hd
  exact hdigit

theorem isDigit_not_sign {c : Char} (h : Decimal.isDigit c = true) : c ≠ '-' ∧ c ≠ '+' := by
  constructor
  · rintro rfl
    exact absurd h (by decide)
  · rintro rfl
    exact absurd h (by decide)

theorem takeDigits_append {ds tail : List Char} (h : IsDigits ds) (htail : NoDigit tail) :
    takeDigits (ds ++ tail) = .ok (ds, tail) := by
  unfold takeDigits
  rw [Text.takeWhile_run_append h.digits htail, Text.dropWhile_run_append h.digits htail]
  exact if_neg (by simpa using h.ne_nil)

theorem takeWhole_append {ds tail : List Char} (h : IsWhole ds) (htail : NoDigit tail) :
    takeWhole (ds ++ tail) = .ok (ds, tail) := by
  have hzero : (ds.head? = some '0' && 1 < ds.length) = false := by
    by_contra hlead
    simp only [Bool.not_eq_false, Bool.and_eq_true, decide_eq_true_eq] at hlead
    have hlength := h.zero_alone hlead.1
    omega
  unfold takeWhole
  rw [takeDigits_append h.digits htail]
  show (if (ds.head? = some '0' && 1 < ds.length) then _ else _) = _
  rw [hzero]
  rfl

theorem takePlaces_append {places : Option (List Char)} {ps tail : List Char}
    (h : PlacesText places ps) (hdigit : NoDigit tail) (hpoint : tail.head? ≠ some '.') :
    takePlaces (ps ++ tail) = .ok (places, tail) := by
  cases h with
  | none =>
      cases tail with
      | nil => rfl
      | cons c rest =>
          unfold takePlaces
          split
          case h_1 heq =>
            obtain ⟨rfl, -⟩ := List.cons.inj heq
            exact absurd rfl hpoint
          case h_2 => rfl
  | some hdigits =>
      show (takeDigits (_ ++ tail) >>= fun r => _) = _
      rw [takeDigits_append hdigits hdigit]
      rfl

theorem takeExponent_append {exponent : Option (Bool × List Char)} {es tail : List Char}
    (h : ExponentText exponent es) (htail : Stops tail) :
    takeExponent (es ++ tail) = .ok (exponent, tail) := by
  have hmark : ∀ {mark : Char} (cs : List Char), mark = 'e' ∨ mark = 'E' →
      takeExponent (mark :: cs) = takeExponent ('e' :: cs) := by
    rintro mark cs (rfl | rfl) <;> rfl
  cases h with
  | none =>
      cases tail with
      | nil => rfl
      | cons c rest =>
          unfold takeExponent
          split
          case h_1 heq =>
            obtain ⟨rfl, -⟩ := List.cons.inj heq
            exact absurd rfl htail.exponent.1
          case h_2 heq =>
            obtain ⟨rfl, -⟩ := List.cons.inj heq
            exact absurd rfl htail.exponent.2
          case h_3 => rfl
  | @unsigned mark ds hmarks hdigits =>
      have htake := takeDigits_append hdigits htail.digit
      obtain ⟨d, rest, rfl, hd⟩ := hdigits.exists_cons
      have hsign := isDigit_not_sign hd
      rw [List.cons_append] at htake
      rw [List.cons_append, hmark _ hmarks, List.cons_append]
      simp [takeExponent, hsign.1, hsign.2, htake]
  | @plus mark ds hmarks hdigits =>
      rw [List.cons_append, hmark _ hmarks]
      show (takeDigits (ds ++ tail) >>= fun r => _) = _
      rw [takeDigits_append hdigits htail.digit]
      rfl
  | @minus mark ds hmarks hdigits =>
      rw [List.cons_append, hmark _ hmarks]
      show (takeDigits (ds ++ tail) >>= fun r => _) = _
      rw [takeDigits_append hdigits htail.digit]
      rfl

theorem ExponentText.head {exponent : Option (Bool × List Char)} {es tail : List Char}
    (h : ExponentText exponent es) (htail : Stops tail) :
    NoDigit (es ++ tail) ∧ (es ++ tail).head? ≠ some '.' := by
  have hmark : ∀ {mark : Char} (cs : List Char), mark = 'e' ∨ mark = 'E' →
      NoDigit (mark :: cs) ∧ (mark :: cs).head? ≠ some '.' := by
    rintro mark cs (rfl | rfl)
    · exact ⟨by rintro c ⟨⟩; decide, by simp⟩
    · exact ⟨by rintro c ⟨⟩; decide, by simp⟩
  cases h with
  | none => exact ⟨htail.digit, htail.point⟩
  | unsigned hmarks _ => exact hmark _ hmarks
  | plus hmarks _ => exact hmark _ hmarks
  | minus hmarks _ => exact hmark _ hmarks

theorem PlacesText.noDigit {places : Option (List Char)} {ps tail : List Char}
    (h : PlacesText places ps) (htail : NoDigit tail) : NoDigit (ps ++ tail) := by
  cases h with
  | none => exact htail
  | some _ =>
      rintro c ⟨⟩
      decide

theorem takeNumber_append {p : NumberParts} {cs tail : List Char} (h : NumberText p cs)
    (htail : Stops tail) : takeNumber (cs ++ tail) = .ok (p, tail) := by
  have hparts : ∀ {whole ps es : List Char} {places : Option (List Char)}
      {exponent : Option (Bool × List Char)}, IsWhole whole → PlacesText places ps →
      ExponentText exponent es →
      takeWhole (whole ++ (ps ++ (es ++ tail))) = .ok (whole, ps ++ (es ++ tail)) ∧
      takePlaces (ps ++ (es ++ tail)) = .ok (places, es ++ tail) ∧
      takeExponent (es ++ tail) = .ok (exponent, tail) := by
    intro whole ps es places exponent hwhole hplaces hexponent
    have hnext := hexponent.head htail
    exact ⟨takeWhole_append hwhole (hplaces.noDigit hnext.1),
      takePlaces_append hplaces hnext.1 hnext.2, takeExponent_append hexponent htail⟩
  cases h with
  | @positive whole ps es places exponent hwhole hplaces hexponent =>
      obtain ⟨d, rest, rfl, hd⟩ := hwhole.digits.exists_cons
      obtain ⟨h₁, h₂, h₃⟩ := hparts hwhole hplaces hexponent
      rw [List.cons_append] at h₁
      simp [takeNumber, (isDigit_not_sign hd).1, h₁, h₂, h₃]
  | @negative whole ps es places exponent hwhole hplaces hexponent =>
      obtain ⟨h₁, h₂, h₃⟩ := hparts hwhole hplaces hexponent
      simp [takeNumber, h₁, h₂, h₃]

/-! ## Texts -/

theorem ofUnit_whole {n : ℕ} (h : n < 0xD800 ∨ 0xE000 ≤ n) :
    Piece.ofUnit n = .char (Char.ofNat n) := by
  have hhalf : (isHighHalf n || isLowHalf n) = false := by
    simp only [isHighHalf, isLowHalf, Bool.or_eq_false_iff, Bool.and_eq_false_iff,
      decide_eq_false_iff_not]
    omega
  unfold Piece.ofUnit
  rw [hhalf]
  rfl

theorem join?_halves {high low : ℕ} (hhigh : 0xD800 ≤ high ∧ high < 0xDC00)
    (hlow : 0xDC00 ≤ low ∧ low < 0xE000) (pieces : List Piece) :
    join? (Piece.ofUnit high :: Piece.ofUnit low :: pieces) =
      (join? pieces).map (joinHalves high low :: ·) := by
  have hpieces : Piece.ofUnit high = .half high ∧ Piece.ofUnit low = .half low := by
    constructor
    · simp [Piece.ofUnit, isHighHalf, hhigh]
    · simp [Piece.ofUnit, isLowHalf, hlow]
  rw [hpieces.1, hpieces.2]
  simp [join?, isHighHalf, isLowHalf, hhigh, hlow]

theorem escaped?_of_escapes {l c : Char} (h : Escapes l c) : escaped? l = some c := by
  cases h <;> rfl

theorem scanText_append {s cs : List Char} (h : CharsText s cs) (tail : List Char) :
    ∃ pieces, scanText (cs ++ '"' :: tail) = (pieces, .ok tail) ∧ join? pieces = some s := by
  induction h with
  | nil => exact ⟨[], rfl, rfl⟩
  | @plain c s cs hprintable _ hbackslash _ ih =>
      obtain ⟨pieces, hscan, hjoin⟩ := ih
      refine ⟨.char c :: pieces, ?_, by simp [join?, hjoin]⟩
      simp [scanText, hbackslash, hprintable, hscan]
  | @letter l c s cs hescapes _ ih =>
      obtain ⟨pieces, hscan, hjoin⟩ := ih
      refine ⟨.char c :: pieces, ?_, by simp [join?, hjoin]⟩
      have hescaped := escaped?_of_escapes hescapes
      have hletter : l ≠ 'u' := by
        rintro rfl
        cases hescapes
      simp [scanText, hletter, hescaped, hscan]
  | @unit w x y z n s cs hdigits hwhole _ ih =>
      obtain ⟨pieces, hscan, hjoin⟩ := ih
      refine ⟨Piece.ofUnit n :: pieces, ?_, ?_⟩
      · simp [scanText, hdigits, hscan]
      · simp [ofUnit_whole hwhole, join?, hjoin]
  | @halves w x y z w' x' y' z' high low s cs hhigh hlow isHigh isLow _ ih =>
      obtain ⟨pieces, hscan, hjoin⟩ := ih
      refine ⟨Piece.ofUnit high :: Piece.ofUnit low :: pieces, ?_, ?_⟩
      · simp [scanText, hhigh, hlow, hscan]
      · rw [join?_halves isHigh isLow, hjoin]
        rfl

theorem readText_append {s : String} {cs : List Char} (h : QuotedText s cs) (tail : List Char) :
    ∃ inner, cs ++ tail = '"' :: inner ∧ readText inner = .done (some s) tail := by
  cases h with
  | @mk cs hchars =>
      obtain ⟨pieces, hscan, hjoin⟩ := scanText_append hchars tail
      refine ⟨cs ++ '"' :: tail, by simp, ?_⟩
      simp [readText, hscan, hjoin]

/-! ## Blanks -/

theorem blanks_nil : Blanks [] :=
  nofun

theorem skipBlanks_cons {c : Char} (h : isBlank c = false) (cs : List Char) :
    skipBlanks (c :: cs) = c :: cs :=
  List.dropWhile_cons_of_neg (by simp [h])

theorem skipBlanks_append {b : List Char} (h : Blanks b) (cs : List Char) :
    skipBlanks (b ++ cs) = skipBlanks cs :=
  List.dropWhile_append_of_pos h

/-- Before a character that shows, blanks are passed over. -/
theorem skipBlanks_to {b : List Char} {c : Char} (h : Blanks b) (hc : isBlank c = false)
    (cs : List Char) : skipBlanks (b ++ c :: cs) = c :: cs := by
  rw [skipBlanks_append h, skipBlanks_cons hc]

theorem not_blank_of_number {c : Char} (h : c = '-' ∨ Decimal.isDigit c = true) :
    isBlank c = false := by
  rcases h with rfl | h
  · decide
  · by_contra hblank
    simp only [Bool.not_eq_false, isBlank, Bool.or_eq_true, beq_iff_eq] at hblank
    rcases hblank with ((rfl | rfl) | rfl) | rfl <;> exact absurd h (by decide)

/-- Blanks end a number. -/
theorem stops_blanks {b cs : List Char} (h : Blanks b) (hcs : Stops cs) : Stops (b ++ cs) := by
  cases b with
  | nil => exact hcs
  | cons c rest =>
      have hc := h c List.mem_cons_self
      apply stops_cons
      · by_contra hdigit
        have hshows := not_blank_of_number (.inr (by simpa using hdigit))
        rw [hc] at hshows
        cases hshows
      · refine ⟨?_, ?_, ?_⟩ <;> (rintro rfl; exact absurd hc (by decide))

/-! ## Where a value starts -/

theorem NumberText.starts {p : NumberParts} {cs : List Char} (h : NumberText p cs) :
    ∃ c rest, cs = c :: rest ∧ (c = '-' ∨ Decimal.isDigit c = true) := by
  cases h with
  | positive hwhole =>
      obtain ⟨d, rest, rfl, hd⟩ := hwhole.digits.exists_cons
      exact ⟨d, _, rfl, .inr hd⟩
  | negative => exact ⟨'-', _, rfl, .inl rfl⟩

/-- What is written starts with a character that shows and closes nothing. -/
structure Opens (c : Char) : Prop where
  shows : isBlank c = false
  not_list_end : c ≠ ']'
  not_table_end : c ≠ '\x7d'

theorem opens_of_number {c : Char} (h : c = '-' ∨ Decimal.isDigit c = true) : Opens c := by
  refine ⟨not_blank_of_number h, ?_, ?_⟩
  · rintro rfl
    exact absurd h (by decide)
  · rintro rfl
    exact absurd h (by decide)

theorem Writes.starts {part : Part} {cs : List Char} (h : Writes part cs) :
    ∃ c rest, cs = c :: rest ∧ Opens c := by
  induction h with
  | nothing | yes | no | emptyList | list | emptyTable | table =>
      exact ⟨_, _, rfl, by constructor <;> decide⟩
  | number hnumber =>
      obtain ⟨c, rest, rfl, hc⟩ := hnumber.starts
      exact ⟨c, rest, rfl, opens_of_number hc⟩
  | text hquoted | lastEntry hquoted | entry hquoted =>
      cases hquoted
      exact ⟨'"', _, rfl, by constructor <;> decide⟩
  | lastItem _ _ ih | item _ _ _ _ ih =>
      obtain ⟨c, rest, rfl, hc⟩ := ih
      exact ⟨c, _, rfl, hc⟩

/-! ## One step of reading -/

section Steps

variable {depth : ℕ}

theorem readValue_blanks {b : List Char} (hb : Blanks b) (cs : List Char) :
    readValue (depth + 1) (b ++ cs) = readValue (depth + 1) cs := by
  unfold readValue
  rw [skipBlanks_append hb]

theorem readValue_number {c : Char} {rest : List Char}
    (hc : c = '-' ∨ Decimal.isDigit c = true) :
    readValue (depth + 1) (c :: rest) = readNumber (c :: rest) := by
  have hskip := skipBlanks_cons (not_blank_of_number hc) rest
  have hother : ∀ e, e ≠ '-' ∧ Decimal.isDigit e = false → c ≠ e := by
    rintro _ ⟨hminus, hdigit⟩ rfl
    rcases hc with rfl | hc
    · exact hminus rfl
    · exact absurd hc (by simp [hdigit])
  have hn := hother 'n' (by decide)
  have ht := hother 't' (by decide)
  have hf := hother 'f' (by decide)
  have hquote := hother '"' (by decide)
  have hlist := hother '[' (by decide)
  have htable := hother '\x7b' (by decide)
  simp [readValue, hskip, hc]

theorem readValue_text {s : String} {cs : List Char} (h : QuotedText s cs) (tail : List Char) :
    readValue (depth + 1) (cs ++ tail) = (.text s, some tail) := by
  obtain ⟨inner, hcs, hread⟩ := readText_append h tail
  have hskip := skipBlanks_cons (show isBlank '"' = false by decide) inner
  rw [hcs]
  simp [readValue, hskip, hread]

theorem readValue_emptyList {b : List Char} (hb : Blanks b) (tail : List Char) :
    readValue (depth + 1) ('[' :: (b ++ ']' :: tail)) = (.ofItems [], some tail) := by
  have hskip := skipBlanks_cons (show isBlank '[' = false by decide) (b ++ ']' :: tail)
  have hskip' := skipBlanks_to hb (show isBlank ']' = false by decide) tail
  simp [readValue, hskip, hskip']

theorem readValue_emptyTable {b : List Char} (hb : Blanks b) (tail : List Char) :
    readValue (depth + 1) ('\x7b' :: (b ++ '\x7d' :: tail)) = (.ofEntries [], some tail) := by
  have hskip := skipBlanks_cons (show isBlank '\x7b' = false by decide) (b ++ '\x7d' :: tail)
  have hskip' := skipBlanks_to hb (show isBlank '\x7d' = false by decide) tail
  simp [readValue, hskip, hskip']

/-- Between its brackets, a list that is not empty is read item by item. -/
theorem readValue_list {b : List Char} {c : Char} {rest : List Char} (hb : Blanks b)
    (hc : Opens c) {items : List Document} {ending : Ending} {after : Option (List Char)}
    (hitems : readItems (readValue depth) (rest.length + 2) (c :: rest) =
      ((items, ending), after)) :
    readValue (depth + 1) ('[' :: (b ++ c :: rest)) = (.list items ending, after) := by
  have hskip := skipBlanks_cons (show isBlank '[' = false by decide) (b ++ c :: rest)
  have hskip' := skipBlanks_to hb hc.shows rest
  simp [readValue, hskip, hskip', hc.not_list_end, hitems]

theorem readValue_table {b : List Char} {c : Char} {rest : List Char} (hb : Blanks b)
    (hc : Opens c) {entries : List (Option String × Document)} {ending : Ending}
    {after : Option (List Char)}
    (hentries : readEntries (readValue depth) (rest.length + 2) (c :: rest) =
      ((entries, ending), after)) :
    readValue (depth + 1) ('\x7b' :: (b ++ c :: rest)) = (.table entries ending, after) := by
  have hskip := skipBlanks_cons (show isBlank '\x7b' = false by decide) (b ++ c :: rest)
  have hskip' := skipBlanks_to hb hc.shows rest
  simp [readValue, hskip, hskip', hc.not_table_end, hentries]

end Steps

/-! ## Whole texts -/

/-- Reading finds this part at the start of a text and stops right behind it. -/
def Found : Part → List Char → Prop
  | .value d, cs => ∀ depth b tail, cs.length ≤ depth → Blanks b → Stops tail →
      readValue depth (b ++ (cs ++ tail)) = (d, some tail)
  | .items ds, cs => ∀ depth fuel b tail, cs.length ≤ depth → cs.length ≤ fuel → Blanks b →
      readItems (readValue depth) fuel (b ++ (cs ++ ']' :: tail)) = ((ds, .closed), some tail)
  | .entries es, cs => ∀ depth fuel b tail, cs.length ≤ depth → cs.length ≤ fuel → Blanks b →
      readEntries (readValue depth) fuel (b ++ (cs ++ '\x7d' :: tail)) =
        ((es.map fun e => (some e.1, e.2), .closed), some tail)

/-- A value is found behind blanks if it is found at its first character. -/
theorem found_of_step {cs : List Char} {d : Document} (hpos : 0 < cs.length)
    (h : ∀ depth tail, cs.length ≤ depth + 1 → Stops tail →
      readValue (depth + 1) (cs ++ tail) = (d, some tail)) :
    Found (.value d) cs := by
  intro depth b tail hdepth hb htail
  obtain ⟨depth, rfl⟩ := Nat.exists_eq_succ_of_ne_zero (show depth ≠ 0 by omega)
  rw [Nat.succ_eq_add_one, readValue_blanks hb]
  exact h depth tail hdepth htail

theorem found_number {p : NumberParts} {cs : List Char} (h : NumberText p cs) :
    Found (.value p.document) cs := by
  obtain ⟨c, rest, rfl, hc⟩ := h.starts
  apply found_of_step (by simp)
  intro depth tail _ htail
  have htake := takeNumber_append h htail
  rw [List.cons_append] at htake ⊢
  rw [readValue_number hc, readNumber, htake]

theorem found_text {s : String} {cs : List Char} (h : QuotedText s cs) :
    Found (.value (.text s)) cs := by
  apply found_of_step
  · cases h
    simp
  · exact fun depth tail _ _ => readValue_text h tail

theorem found_emptyList {b : List Char} (hb : Blanks b) :
    Found (.value (.ofItems [])) ('[' :: (b ++ [']'])) := by
  apply found_of_step (by simp)
  intro depth tail _ _
  simpa using readValue_emptyList hb tail

theorem found_emptyTable {b : List Char} (hb : Blanks b) :
    Found (.value (.ofEntries [])) ('\x7b' :: (b ++ ['\x7d'])) := by
  apply found_of_step (by simp)
  intro depth tail _ _
  simpa using readValue_emptyTable hb tail

theorem found_list {ds : List Document} {b cs : List Char} (hb : Blanks b)
    (h : Writes (.items ds) cs) (hfound : Found (.items ds) cs) :
    Found (.value (.ofItems ds)) ('[' :: (b ++ (cs ++ [']']))) := by
  apply found_of_step (by simp)
  intro depth tail hdepth _
  simp only [List.length_cons, List.length_append] at hdepth
  obtain ⟨c, rest, rfl, hc⟩ := h.starts
  have hitems := hfound depth ((rest ++ ']' :: tail).length + 2) [] tail (by omega)
    (by simp; omega) blanks_nil
  have hread := readValue_list hb hc hitems
  simpa [Document.ofItems] using hread

theorem found_table {es : List (String × Document)} {b cs : List Char} (hb : Blanks b)
    (h : Writes (.entries es) cs) (hfound : Found (.entries es) cs) :
    Found (.value (.ofEntries es)) ('\x7b' :: (b ++ (cs ++ ['\x7d']))) := by
  apply found_of_step (by simp)
  intro depth tail hdepth _
  simp only [List.length_cons, List.length_append] at hdepth
  obtain ⟨c, rest, rfl, hc⟩ := h.starts
  have hentries := hfound depth ((rest ++ '\x7d' :: tail).length + 2) [] tail (by omega)
    (by simp; omega) blanks_nil
  have hread := readValue_table hb hc hentries
  simpa [Document.ofEntries] using hread

theorem found_lastItem {d : Document} {cs b : List Char} (hfound : Found (.value d) cs)
    (hb : Blanks b) (hpos : 0 < cs.length) : Found (.items [d]) (cs ++ b) := by
  intro depth fuel b₀ tail hdepth hfuel hb₀
  rw [List.length_append] at hdepth hfuel
  obtain ⟨fuel, rfl⟩ := Nat.exists_eq_succ_of_ne_zero (show fuel ≠ 0 by omega)
  have hstops : Stops (b ++ ']' :: tail) :=
    stops_blanks hb (stops_cons (by decide) (by decide))
  have hread := hfound depth b₀ _ (by omega) hb₀ hstops
  have hskip := skipBlanks_to hb (show isBlank ']' = false by decide) tail
  simp [readItems, hread, hskip]

theorem found_item {d : Document} {ds : List Document} {cs b b' rest : List Char}
    (hfound : Found (.value d) cs) (hb : Blanks b) (hb' : Blanks b')
    (hothers : Found (.items ds) rest) :
    Found (.items (d :: ds)) (cs ++ (b ++ ',' :: (b' ++ rest))) := by
  intro depth fuel b₀ tail hdepth hfuel hb₀
  simp only [List.length_append, List.length_cons] at hdepth hfuel
  obtain ⟨fuel, rfl⟩ := Nat.exists_eq_succ_of_ne_zero (show fuel ≠ 0 by omega)
  have hstops : Stops (b ++ ',' :: (b' ++ (rest ++ ']' :: tail))) :=
    stops_blanks hb (stops_cons (by decide) (by decide))
  have hread := hfound depth b₀ _ (by omega) hb₀ hstops
  have hskip := skipBlanks_to hb (show isBlank ',' = false by decide)
    (b' ++ (rest ++ ']' :: tail))
  have hrest := hothers depth fuel b' tail (by omega) (by omega) hb'
  simp [readItems, hread, hskip, hrest]

/-- A key and its value, up to what follows the value. -/
theorem readEntry {key : String} {d : Document} {ks b b' cs tail : List Char} (depth : ℕ)
    (hkey : QuotedText key ks) (hb : Blanks b) (hb' : Blanks b')
    (hfound : Found (.value d) cs) (hdepth : cs.length ≤ depth) (htail : Stops tail) :
    ∃ inner rest, ks ++ (b ++ ':' :: (b' ++ (cs ++ tail))) = '"' :: inner ∧
      readText inner = .done (some key) rest ∧
      readEntryValue (readValue depth) rest = (d, some tail) := by
  obtain ⟨inner, hks, hread⟩ := readText_append hkey (b ++ ':' :: (b' ++ (cs ++ tail)))
  refine ⟨inner, _, hks, hread, ?_⟩
  have hskip := skipBlanks_to hb (show isBlank ':' = false by decide) (b' ++ (cs ++ tail))
  have hvalue := hfound depth b' tail hdepth hb' htail
  simp [readEntryValue, hskip, hvalue]

theorem found_lastEntry {key : String} {d : Document} {ks b b' cs b'' : List Char}
    (hkey : QuotedText key ks) (hb : Blanks b) (hb' : Blanks b')
    (hfound : Found (.value d) cs) (hb'' : Blanks b'') :
    Found (.entries [(key, d)]) (ks ++ (b ++ ':' :: (b' ++ (cs ++ b'')))) := by
  intro depth fuel b₀ tail hdepth hfuel hb₀
  simp only [List.length_append, List.length_cons] at hdepth hfuel
  obtain ⟨fuel, rfl⟩ := Nat.exists_eq_succ_of_ne_zero (show fuel ≠ 0 by omega)
  have hstops : Stops (b'' ++ '\x7d' :: tail) :=
    stops_blanks hb'' (stops_cons (by decide) (by decide))
  obtain ⟨inner, rest, htext, hread, hvalue⟩ :=
    readEntry depth hkey hb hb' hfound (by omega) hstops
  have hskip := skipBlanks_to hb₀ (show isBlank '"' = false by decide) inner
  have hskip' := skipBlanks_to hb'' (show isBlank '\x7d' = false by decide) tail
  simp only [List.append_assoc, List.cons_append]
  rw [htext]
  simp [readEntries, hskip, hread, hvalue, hskip']

theorem found_entry {key : String} {d : Document} {es : List (String × Document)}
    {ks b b' cs b'' b₃ rest : List Char} (hkey : QuotedText key ks) (hb : Blanks b)
    (hb' : Blanks b') (hfound : Found (.value d) cs) (hb'' : Blanks b'') (hb₃ : Blanks b₃)
    (hothers : Found (.entries es) rest) :
    Found (.entries ((key, d) :: es))
      (ks ++ (b ++ ':' :: (b' ++ (cs ++ (b'' ++ ',' :: (b₃ ++ rest)))))) := by
  intro depth fuel b₀ tail hdepth hfuel hb₀
  simp only [List.length_append, List.length_cons] at hdepth hfuel
  obtain ⟨fuel, rfl⟩ := Nat.exists_eq_succ_of_ne_zero (show fuel ≠ 0 by omega)
  have hstops : Stops (b'' ++ ',' :: (b₃ ++ (rest ++ '\x7d' :: tail))) :=
    stops_blanks hb'' (stops_cons (by decide) (by decide))
  obtain ⟨inner, after, htext, hread, hvalue⟩ :=
    readEntry depth hkey hb hb' hfound (by omega) hstops
  have hskip := skipBlanks_to hb₀ (show isBlank '"' = false by decide) inner
  have hskip' := skipBlanks_to hb'' (show isBlank ',' = false by decide)
    (b₃ ++ (rest ++ '\x7d' :: tail))
  have hrest := hothers depth fuel b₃ tail (by omega) (by omega) hb₃
  simp only [List.append_assoc, List.cons_append]
  rw [htext]
  simp [readEntries, hskip, hread, hvalue, hskip', hrest]

theorem Writes.found {part : Part} {cs : List Char} (h : Writes part cs) : Found part cs := by
  induction h with
  | nothing | yes | no => exact found_of_step (by simp) fun _ _ _ _ => rfl
  | number hnumber => exact found_number hnumber
  | text hquoted => exact found_text hquoted
  | emptyList hb' => exact found_emptyList hb'
  | emptyTable hb' => exact found_emptyTable hb'
  | list hb' hinner ih => exact found_list hb' hinner ih
  | table hb' hinner ih => exact found_table hb' hinner ih
  | lastItem hvalue hb' ih =>
      obtain ⟨c, rest, rfl, -⟩ := hvalue.starts
      exact found_lastItem ih hb' (by simp)
  | item _ hb hb' _ ih ihs => exact found_item ih hb hb' ihs
  | lastEntry hkey hb hb' _ hb'' ih => exact found_lastEntry hkey hb hb' ih hb''
  | entry hkey hb hb' _ hb'' hb₃ _ ih ihs => exact found_entry hkey hb hb' ih hb'' hb₃ ihs

/-- A text that stands for a document is read as this document, to its end. -/
theorem decode_of_isJson {α : Type} {d : Document} {text : String} (h : IsJson d text)
    (decoder : Decoder α) : decode decoder text = decoder d := by
  obtain ⟨b, cs, b', hb, hwrites, hb', htext⟩ := h
  have hread : read text.toList = (d, some b') := by
    have hstops : Stops b' := by simpa using stops_blanks hb' stops_nil
    have hdepth : cs.length ≤ text.toList.length + 1 := by
      rw [htext]
      simp only [List.length_append]
      omega
    have hfound := hwrites.found (text.toList.length + 1) b b' hdepth hb hstops
    rwa [← htext] at hfound
  have hblank : skipBlanks b' = [] := List.dropWhile_eq_nil_iff.mpr hb'
  unfold decode
  rw [hread]
  cases hvalue : decoder d with
  | error fault => simp [hvalue]
  | ok value => simp [hvalue, hblank]

/-! ## Parts that nobody asks for -/

def Part.Faultless : Part → Prop
  | .value d => d.passedFault? = none
  | .items ds => ∀ d ∈ ds, d.passedFault? = none
  | .entries es => ∀ e ∈ es, e.2.passedFault? = none

theorem NumberParts.faultless (p : NumberParts) : p.document.passedFault? = none := by
  unfold document
  split
  case h_1 => rfl
  case h_2 => split <;> rfl

theorem Writes.faultless {part : Part} {cs : List Char} (h : Writes part cs) :
    part.Faultless := by
  induction h with
  | nothing | yes | no | text => rfl
  | number => exact NumberParts.faultless _
  | emptyList | emptyTable => rfl
  | list _ _ ih => exact Document.passedFault?_list.mpr ⟨ih, rfl⟩
  | table _ _ ih => exact Document.passedFault?_ofEntries.mpr ih
  | lastItem _ _ ih => exact List.forall_mem_singleton.mpr ih
  | item _ _ _ _ ih ihs => exact List.forall_mem_cons.mpr ⟨ih, ihs⟩
  | lastEntry _ _ _ _ _ ih => exact List.forall_mem_singleton.mpr ih
  | entry _ _ _ _ _ _ _ ih ihs => exact List.forall_mem_cons.mpr ⟨ih, ihs⟩

/-- Whatever the grammar allows may be passed over. -/
theorem passedFault?_of_isJson {d : Document} {text : String} (h : IsJson d text) :
    d.passedFault? = none := by
  obtain ⟨b, cs, b', -, hwrites, -, -⟩ := h
  exact hwrites.faultless

end GrowthCurve.Json
