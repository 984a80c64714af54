import Mathlib
import GrowthCurve.Json.Writer
import GrowthCurve.Proofs.Binary.Range
import GrowthCurve.Proofs.Json.Numerals
import GrowthCurve.Proofs.Json.Reading

/-!
# What is written is JSON

Every document is written as a text that the grammar allows, in either layout.
The text stands for the document itself but for its reals: a real comes back as
the reader takes its digits, and one that is not finite comes back as nothing.
-/

namespace GrowthCurve

namespace Json

/-! ## Texts -/

theorem escapes_of_escapeLetter? {c letter : Char} (h : escapeLetter? c = some letter) :
    Escapes letter c := by
  unfold escapeLetter? at h
  split at h <;> cases h <;> constructor

/-- The digits of a control character are read back. -/
theorem hexNumber?_hexDigit : ∀ n < 0x20,
    Text.hexNumber? ['0', '0', Text.hexDigit (n / 16), Text.hexDigit (n % 16)] = some n := by
  decide

theorem charsText_writeChar (c : Char) {s cs : List Char} (h : CharsText s cs) :
    CharsText (c :: s) (writeChar c ++ cs) := by
  unfold writeChar
  cases hletter : escapeLetter? c with
  | some letter => exact .letter (escapes_of_escapeLetter? hletter) h
  | none =>
      dsimp only
      by_cases hcontrol : c.toNat < 0x20
      · rw [if_pos hcontrol]
        have hunit := CharsText.unit (hexNumber?_hexDigit c.toNat hcontrol) (.inl (by omega)) h
        rw [Char.ofNat_toNat] at hunit
        exact hunit
      · rw [if_neg hcontrol]
        have hquote : c ≠ '"' := by
          rintro rfl
          cases hletter
        have hbackslash : c ≠ '\\' := by
          rintro rfl
          cases hletter
        exact .plain (by omega) hquote hbackslash h

theorem quotedText_writeText (s : String) : QuotedText s (writeText s) := by
  have hchars : ∀ cs : List Char, CharsText cs (cs.flatMap writeChar) := by
    intro cs
    induction cs with
    | nil => exact .nil
    | cons c rest ih => exact charsText_writeChar c ih
  exact .mk (hchars s.toList)

/-! ## Documents -/

mutual

/-- What a document is once it was written and read. -/
def reread : Document → Document
  | .integer n => (wholeParts n).document
  | .real x => (read (writeReal x).toList).1
  | .list items _ => .ofItems (rereadItems items)
  | .table entries _ => .ofEntries (rereadEntries entries)
  | .broken _ _ => .nothing
  | d => d

def rereadItems : List Document → List Document
  | [] => []
  | d :: rest => reread d :: rereadItems rest

def rereadEntries : List (Option String × Document) → List (String × Document)
  | [] => []
  | (key, d) :: rest => (key.getD "", reread d) :: rereadEntries rest

end

theorem read_of_writes {d : Document} {cs : List Char} (h : Writes (.value d) cs) :
    read cs = (d, some []) := by
  have hfound := h.found (cs.length + 1) [] [] (by omega) blanks_nil stops_nil
  rwa [List.append_nil] at hfound

theorem writes_writeReal (x : Float) :
    Writes (.value (reread (.real x))) (writeReal x).toList := by
  cases hx : Binary.ofFloat? x with
  | none =>
      have hnull : (writeReal x).toList = ['n', 'u', 'l', 'l'] := by
        rw [writeReal_of_not_finite hx]
        rfl
      unfold reread
      rw [hnull, read_of_writes .nothing]
      exact .nothing
  | some b =>
      obtain ⟨p, hp, -⟩ := numberText_writeReal hx
      unfold reread
      rw [read_of_writes (.number hp)]
      exact .number hp

theorem blanks_lineBreak (layout : Layout) (depth : ℕ) : Blanks (layout.lineBreak depth) := by
  cases layout with
  | compact => exact blanks_nil
  | indented =>
      refine List.forall_mem_cons.mpr ⟨by decide, ?_⟩
      intro c hc
      rw [List.eq_of_mem_replicate hc]
      decide

theorem colon_eq (layout : Layout) : ∃ b, Blanks b ∧ layout.colon = ':' :: b := by
  cases layout with
  | compact => exact ⟨[], blanks_nil, rfl⟩
  | indented => exact ⟨[' '], by simp [Blanks, isBlank], rfl⟩

mutual

theorem writes_writeDocument (layout : Layout) (depth : ℕ) (d : Document) :
    Writes (.value (reread d)) (writeDocument layout depth d) := by
  cases d with
  | nothing => exact .nothing
  | truth value =>
      cases value with
      | true => exact .yes
      | false => exact .no
  | integer n => exact .number (numberText_integer n)
  | real x => exact writes_writeReal x
  | text s => exact .text (quotedText_writeText s)
  | list items ending =>
      cases items with
      | nil => exact .emptyList blanks_nil
      | cons d rest =>
          have hfirst := writes_writeDocument layout (depth + 1) d
          have hitems := writes_writeItems layout (depth + 1) rest hfirst
            (blanks_lineBreak layout depth)
          have hlist := Writes.list (blanks_lineBreak layout (depth + 1)) hitems
          simpa [writeDocument, reread, rereadItems] using hlist
  | table entries ending =>
      cases entries with
      | nil => exact .emptyTable blanks_nil
      | cons entry rest =>
          obtain ⟨key, d⟩ := entry
          have hfirst := writes_writeDocument layout (depth + 1) d
          have hentries := writes_writeEntries layout (depth + 1) rest
            (quotedText_writeText (key.getD "")) hfirst (blanks_lineBreak layout depth)
          have htable := Writes.table (blanks_lineBreak layout (depth + 1)) hentries
          simpa [writeDocument, reread, rereadEntries] using htable
  | broken asked passed => exact .nothing

/-- Items follow a first one, up to the closing bracket. -/
theorem writes_writeItems (layout : Layout) (depth : ℕ) (rest : List Document) {d : Document}
    {cs b : List Char} (hfirst : Writes (.value d) cs) (hb : Blanks b) :
    Writes (.items (d :: rereadItems rest)) (cs ++ (writeItems layout depth rest ++ b)) := by
  cases rest with
  | nil => exact .lastItem hfirst hb
  | cons d' rest =>
      have hnext := writes_writeDocument layout depth d'
      have hothers := writes_writeItems layout depth rest hnext hb
      have hitems := Writes.item hfirst blanks_nil (blanks_lineBreak layout depth) hothers
      simpa [writeItems, rereadItems] using hitems

theorem writes_writeEntries (layout : Layout) (depth : ℕ)
    (rest : List (Option String × Document)) {key : String} {d : Document} {ks cs b : List Char}
    (hkey : QuotedText key ks) (hfirst : Writes (.value d) cs) (hb : Blanks b) :
    Writes (.entries ((key, d) :: rereadEntries rest))
      (ks ++ (layout.colon ++ (cs ++ (writeEntries layout depth rest ++ b)))) := by
  obtain ⟨b', hb', hcolon⟩ := colon_eq layout
  cases rest with
  | nil =>
      have hentry := Writes.lastEntry hkey blanks_nil hb' hfirst hb
      simpa [writeEntries, rereadEntries, hcolon] using hentry
  | cons entry rest =>
      obtain ⟨key', d'⟩ := entry
      have hnext := writes_writeDocument layout depth d'
      have hothers := writes_writeEntries layout depth rest
        (quotedText_writeText (key'.getD "")) hnext hb
      have hentries := Writes.entry hkey blanks_nil hb' hfirst blanks_nil
        (blanks_lineBreak layout depth) hothers
      simpa [writeEntries, rereadEntries, hcolon] using hentries

end

/-- Every document is written as JSON. -/
theorem isJson_write (layout : Layout) (d : Document) : IsJson (reread d) (write layout d) := by
  refine ⟨[], writeDocument layout 0 d, [], blanks_nil, writes_writeDocument layout 0 d,
    blanks_nil, ?_⟩
  simp [write]

theorem decode_write {α : Type} (decoder : Decoder α) (layout : Layout) (d : Document) :
    decode decoder (write layout d) = decoder (reread d) :=
  decode_of_isJson (isJson_write layout d) decoder

/-! ## What comes back -/

theorem reread_ofItems (ds : List Document) : reread (.ofItems ds) = .ofItems (ds.map reread) := by
  have hitems : rereadItems ds = ds.map reread := by
    induction ds with
    | nil => rfl
    | cons d rest ih =>
        unfold rereadItems
        rw [ih, List.map_cons]
  show Document.ofItems (rereadItems ds) = _
  rw [hitems]

theorem reread_ofEntries (es : List (String × Document)) :
    reread (.ofEntries es) = .ofEntries (es.map fun e => (e.1, reread e.2)) := by
  have hentries : rereadEntries (es.map fun e => (some e.1, e.2)) =
      es.map fun e => (e.1, reread e.2) := by
    induction es with
    | nil => rfl
    | cons e rest ih =>
        rw [List.map_cons, List.map_cons]
        unfold rereadEntries
        rw [ih]
        rfl
  show Document.ofEntries (rereadEntries _) = _
  rw [hentries]

theorem reread_integer {n : ℕ} (h : n < 2 ^ 64) : reread (.integer n) = .integer n :=
  document_wholeParts h

theorem reread_real_of_not_finite {x : Float} (h : Binary.ofFloat? x = none) :
    reread (.real x) = .nothing := by
  have hnull : (writeReal x).toList = ['n', 'u', 'l', 'l'] := by
    rw [writeReal_of_not_finite h]
    rfl
  unfold reread
  rw [hnull, read_of_writes .nothing]

theorem reread_real_of_finite {x : Float} {b : Binary} (h : Binary.ofFloat? x = some b) :
    ∃ p : NumberParts, p.integer? = none ∧ reread (.real x) = p.document := by
  obtain ⟨p, hp, hreal⟩ := numberText_writeReal h
  refine ⟨p, hreal, ?_⟩
  unfold reread
  rw [read_of_writes (.number hp)]

/-- A real whose digits are read back as this real comes back. -/
theorem reread_real {x : Float} (h : decode Decode.real (writeReal x) = .ok x) :
    reread (.real x) = .real x := by
  have hjson : IsJson (reread (.real x)) (writeReal x) :=
    ⟨[], _, [], blanks_nil, writes_writeReal x, blanks_nil, by simp⟩
  rw [decode_of_isJson hjson] at h
  cases hx : Binary.ofFloat? x with
  | none =>
      rw [reread_real_of_not_finite hx] at h
      cases h
  | some b =>
      obtain ⟨p, hreal, hdocument⟩ := reread_real_of_finite hx
      rw [hdocument] at h ⊢
      unfold NumberParts.document at h ⊢
      rw [hreal] at h ⊢
      cases hp : p.real? with
      | none =>
          rw [hp] at h
          cases h
      | some y =>
          rw [hp] at h
          cases h
          rfl

end Json

/-- The digits of every finite number among these are read back as this number. -/
def ReadBack (xs : List Float) : Prop :=
  ∀ x ∈ xs, x.isFinite = true → Json.decode Decode.real (Json.writeReal x) = .ok x

namespace Json

theorem reread_of_isFinite {xs : List Float} (h : ReadBack xs) {x : Float} (hx : x ∈ xs)
    (hfinite : x.isFinite = true) : reread (.real x) = .real x :=
  reread_real (h x hx hfinite)

theorem reread_of_not_isFinite {x : Float} (h : x.isFinite = false) :
    reread (.real x) = .nothing :=
  reread_real_of_not_finite (Binary.ofFloat?_of_not_isFinite h)

end Json

end GrowthCurve
