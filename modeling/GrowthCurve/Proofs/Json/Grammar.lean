import Mathlib
import GrowthCurve.Json.Text
import GrowthCurve.Json.Number
import GrowthCurve.Json.Reader

/-!
# The grammar of JSON

Which texts stand for a document. The grammar leaves open what a writer may
choose: blanks between tokens, escapes in texts, the form of numbers.
-/

namespace GrowthCurve.Json

/-! ## Numbers -/

/-- Digits, one at the least. -/
structure IsDigits (cs : List Char) : Prop where
  ne_nil : cs ≠ []
  digits : ∀ c ∈ cs, Decimal.isDigit c = true

theorem IsDigits.exists_cons {ds : List Char} (h : IsDigits ds) :
    ∃ d rest, ds = d :: rest ∧ Decimal.isDigit d = true := by
  obtain ⟨d, rest, rfl⟩ := List.exists_cons_of_ne_nil h.ne_nil
  exact ⟨d, rest, rfl, h.digits d List.mem_cons_self⟩

/-- Digits without a needless zero in front. -/
structure IsWhole (cs : List Char) : Prop where
  digits : IsDigits cs
  zero_alone : cs.head? = some '0' → cs.length = 1

inductive PlacesText : Option (List Char) → List Char → Prop where
  | none : PlacesText none []
  | some {ds : List Char} (digits : IsDigits ds) : PlacesText (some ds) ('.' :: ds)

inductive ExponentText : Option (Bool × List Char) → List Char → Prop where
  | none : ExponentText none []
  | unsigned {mark : Char} {ds : List Char} (marks : mark = 'e' ∨ mark = 'E')
      (digits : IsDigits ds) : ExponentText (some (false, ds)) (mark :: ds)
  | plus {mark : Char} {ds : List Char} (marks : mark = 'e' ∨ mark = 'E')
      (digits : IsDigits ds) : ExponentText (some (false, ds)) (mark :: '+' :: ds)
  | minus {mark : Char} {ds : List Char} (marks : mark = 'e' ∨ mark = 'E')
      (digits : IsDigits ds) : ExponentText (some (true, ds)) (mark :: '-' :: ds)

inductive NumberText : NumberParts → List Char → Prop where
  | positive {whole ps es : List Char} {places : Option (List Char)}
      {exponent : Option (Bool × List Char)} (digits : IsWhole whole)
      (fraction : PlacesText places ps) (power : ExponentText exponent es) :
      NumberText ⟨false, whole, places, exponent⟩ (whole ++ (ps ++ es))
  | negative {whole ps es : List Char} {places : Option (List Char)}
      {exponent : Option (Bool × List Char)} (digits : IsWhole whole)
      (fraction : PlacesText places ps) (power : ExponentText exponent es) :
      NumberText ⟨true, whole, places, exponent⟩ ('-' :: (whole ++ (ps ++ es)))

/-! ## Texts -/

/-- What a letter after a backslash stands for. -/
inductive Escapes : Char → Char → Prop where
  | quote : Escapes '"' '"'
  | backslash : Escapes '\\' '\\'
  | slash : Escapes '/' '/'
  | newline : Escapes 'n' '\n'
  | carriageReturn : Escapes 'r' '\r'
  | tab : Escapes 't' '\t'
  | backspace : Escapes 'b' '\x08'
  | formFeed : Escapes 'f' '\x0c'

/-- The characters between quotes that stand for these characters. A character
beyond 16 bits may be given by two escaped halves. -/
inductive CharsText : List Char → List Char → Prop where
  | nil : CharsText [] []
  | plain {c : Char} {s cs : List Char} (printable : 0x20 ≤ c.toNat) (quote : c ≠ '"')
      (backslash : c ≠ '\\') (rest : CharsText s cs) : CharsText (c :: s) (c :: cs)
  | letter {l c : Char} {s cs : List Char} (escapes : Escapes l c) (rest : CharsText s cs) :
      CharsText (c :: s) ('\\' :: l :: cs)
  | unit {w x y z : Char} {n : Nat} {s cs : List Char}
      (digits : Text.hexNumber? [w, x, y, z] = some n) (whole : n < 0xD800 ∨ 0xE000 ≤ n)
      (rest : CharsText s cs) :
      CharsText (Char.ofNat n :: s) ('\\' :: 'u' :: w :: x :: y :: z :: cs)
  | halves {w x y z w' x' y' z' : Char} {high low : Nat} {s cs : List Char}
      (highDigits : Text.hexNumber? [w, x, y, z] = some high)
      (lowDigits : Text.hexNumber? [w', x', y', z'] = some low)
      (isHigh : 0xD800 ≤ high ∧ high < 0xDC00) (isLow : 0xDC00 ≤ low ∧ low < 0xE000)
      (rest : CharsText s cs) :
      CharsText (Char.ofNat (0x10000 + (high - 0xD800) * 0x400 + (low - 0xDC00)) :: s)
        ('\\' :: 'u' :: w :: x :: y :: z :: '\\' :: 'u' :: w' :: x' :: y' :: z' :: cs)

/-- A text between its quotes. -/
inductive QuotedText : String → List Char → Prop where
  | mk {s : String} {cs : List Char} (chars : CharsText s.toList cs) :
      QuotedText s ('"' :: (cs ++ ['"']))

/-! ## Values -/

/-- Nothing but blanks. -/
def Blanks (cs : List Char) : Prop :=
  ∀ c ∈ cs, isBlank c = true

/-- What a piece of text stands for: a value, or what stands inside the
brackets of a list or a table. -/
inductive Part where
  | value (d : Document)
  | items (ds : List Document)
  | entries (es : List (String × Document))

inductive Writes : Part → List Char → Prop where
  | nothing : Writes (.value .nothing) ['n', 'u', 'l', 'l']
  | yes : Writes (.value (.truth true)) ['t', 'r', 'u', 'e']
  | no : Writes (.value (.truth false)) ['f', 'a', 'l', 's', 'e']
  | number {p : NumberParts} {cs : List Char} (number : NumberText p cs) :
      Writes (.value p.document) cs
  | text {s : String} {cs : List Char} (quoted : QuotedText s cs) : Writes (.value (.text s)) cs
  | emptyList {b : List Char} (blanks : Blanks b) :
      Writes (.value (.ofItems [])) ('[' :: (b ++ [']']))
  | list {ds : List Document} {b cs : List Char} (blanks : Blanks b)
      (inner : Writes (.items ds) cs) : Writes (.value (.ofItems ds)) ('[' :: (b ++ (cs ++ [']'])))
  | emptyTable {b : List Char} (blanks : Blanks b) :
      Writes (.value (.ofEntries [])) ('\x7b' :: (b ++ ['\x7d']))
  | table {es : List (String × Document)} {b cs : List Char} (blanks : Blanks b)
      (inner : Writes (.entries es) cs) :
      Writes (.value (.ofEntries es)) ('\x7b' :: (b ++ (cs ++ ['\x7d'])))
  | lastItem {d : Document} {cs b : List Char} (value : Writes (.value d) cs)
      (blanks : Blanks b) : Writes (.items [d]) (cs ++ b)
  | item {d : Document} {ds : List Document} {cs b b' rest : List Char}
      (value : Writes (.value d) cs) (blanks : Blanks b) (blanks' : Blanks b')
      (others : Writes (.items ds) rest) :
      Writes (.items (d :: ds)) (cs ++ (b ++ ',' :: (b' ++ rest)))
  | lastEntry {key : String} {d : Document} {ks b b' cs b'' : List Char}
      (quoted : QuotedText key ks) (blanks : Blanks b) (blanks' : Blanks b')
      (value : Writes (.value d) cs) (blanks'' : Blanks b'') :
      Writes (.entries [(key, d)]) (ks ++ (b ++ ':' :: (b' ++ (cs ++ b''))))
  | entry {key : String} {d : Document} {es : List (String × Document)}
      {ks b b' cs b'' b₃ rest : List Char}
      (quoted : QuotedText key ks) (blanks : Blanks b) (blanks' : Blanks b')
      (value : Writes (.value d) cs) (blanks'' : Blanks b'') (blanks₃ : Blanks b₃)
      (others : Writes (.entries es) rest) :
      Writes (.entries ((key, d) :: es))
        (ks ++ (b ++ ':' :: (b' ++ (cs ++ (b'' ++ ',' :: (b₃ ++ rest))))))

/-- A whole text that stands for a document. -/
def IsJson (d : Document) (text : String) : Prop :=
  ∃ b cs b', Blanks b ∧ Writes (.value d) cs ∧ Blanks b' ∧ text.toList = b ++ (cs ++ b')

end GrowthCurve.Json
