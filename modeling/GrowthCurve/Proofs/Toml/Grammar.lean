import Mathlib
import GrowthCurve.Toml.Reader

/-!
# The grammar of TOML

Which texts stand for a table. A text is made of lines with pairs and headers,
and these say how tables are nested: by headers, by keys with points or by
tables between braces.
-/

namespace GrowthCurve.Toml

open Text

/-! ## Between values -/

/-- Nothing but blanks. -/
def Blanks (cs : List Char) : Prop :=
  ∀ c ∈ cs, isBlank c = true

inductive LineEnd : List Char → Prop where
  | feed : LineEnd ['\n']
  | returnFeed : LineEnd ['\r', '\n']

/-- A comment up to the end of its line, if there is one. -/
inductive Comment : List Char → Prop where
  | none : Comment []
  | text {cs : List Char} (printable : ∀ c ∈ cs, isPrintable c = true) : Comment ('#' :: cs)

/-- What may stand between the items of a list. -/
inductive Space : List Char → Prop where
  | nil : Space []
  | blank {c : Char} {cs : List Char} (blank : isBlank c = true) (rest : Space cs) :
      Space (c :: cs)
  | line {comment e cs : List Char} (comment_text : Comment comment) (ends : LineEnd e)
      (rest : Space cs) : Space (comment ++ (e ++ cs))

/-! ## Texts and keys -/

/-- What a letter after a backslash stands for. -/
inductive Escapes : Char → Char → Prop where
  | backspace : Escapes 'b' '\x08'
  | tab : Escapes 't' '\t'
  | newline : Escapes 'n' '\n'
  | formFeed : Escapes 'f' '\x0c'
  | carriageReturn : Escapes 'r' '\r'
  | quote : Escapes '"' '"'
  | backslash : Escapes '\\' '\\'

/-- The characters between quotation marks that stand for these characters. -/
inductive CharsText : List Char → List Char → Prop where
  | nil : CharsText [] []
  | plain {c : Char} {s cs : List Char} (printable : isPrintable c = true) (quote : c ≠ '"')
      (backslash : c ≠ '\\') (rest : CharsText s cs) : CharsText (c :: s) (c :: cs)
  | letter {l c : Char} {s cs : List Char} (escapes : Escapes l c) (rest : CharsText s cs) :
      CharsText (c :: s) ('\\' :: l :: cs)
  | unit {w x y z c : Char} {s cs : List Char} (digits : codePoint? [w, x, y, z] = some c)
      (rest : CharsText s cs) : CharsText (c :: s) ('\\' :: 'u' :: w :: x :: y :: z :: cs)
  | longUnit {q r t v w x y z c : Char} {s cs : List Char}
      (digits : codePoint? [q, r, t, v, w, x, y, z] = some c) (rest : CharsText s cs) :
      CharsText (c :: s) ('\\' :: 'U' :: q :: r :: t :: v :: w :: x :: y :: z :: cs)

/-- A text between its quotes, on one line. -/
inductive QuotedText : String → List Char → Prop where
  | basic {s : String} {cs : List Char} (chars : CharsText s.toList cs) :
      QuotedText s ('"' :: (cs ++ ['"']))
  | literal {s : String} (printable : ∀ c ∈ s.toList, isPrintable c = true)
      (quote : '\'' ∉ s.toList) : QuotedText s ('\'' :: (s.toList ++ ['\'']))

inductive KeyPart : String → List Char → Prop where
  | bare {cs : List Char} (ne_nil : cs ≠ []) (chars : ∀ c ∈ cs, isKeyChar c = true) :
      KeyPart (String.ofList cs) cs
  | quoted {s : String} {cs : List Char} (quoted : QuotedText s cs) : KeyPart s cs

/-- The parts of a key, with points between them. -/
inductive KeyText : List String → List Char → Prop where
  | last {s : String} {b cs b' : List Char} (blanks : Blanks b) (part : KeyPart s cs)
      (blanks' : Blanks b') : KeyText [s] (b ++ (cs ++ b'))
  | more {s : String} {parts : List String} {b cs b' rest : List Char} (blanks : Blanks b)
      (part : KeyPart s cs) (blanks' : Blanks b') (others : KeyText parts rest) :
      KeyText (s :: parts) (b ++ (cs ++ (b' ++ '.' :: rest)))

/-! ## Tables -/

abbrev Table := List (String × Document)

def keys (es : Table) : List String :=
  es.map Prod.fst

def Pair.below (k : String) (p : Pair) : Pair :=
  { p with path := k :: p.path }

def Section.below (k : String) (s : Section) : Section :=
  { s with path := k :: s.path }

/-- Two lists in one, each in its own order. -/
inductive Mixed {α : Type} : List α → List α → List α → Prop where
  | nil : Mixed [] [] []
  | left {a : α} {as bs cs : List α} (rest : Mixed as bs cs) : Mixed (a :: as) bs (a :: cs)
  | right {b : α} {as bs cs : List α} (rest : Mixed as bs cs) : Mixed as (b :: bs) (b :: cs)

/-- Pairs and the table that they make. Pairs whose keys start with the same
part make a table inside it; other pairs may stand between them. -/
inductive Pairs : List Pair → Table → Prop where
  | nil : Pairs [] []
  | value {k : String} {d : Document} {ps : List Pair} {es : Table} (others : Pairs ps es)
      (new : k ∉ keys es) : Pairs (⟨[], k, d⟩ :: ps) ((k, d) :: es)
  | dotted {k : String} {p : Pair} {inner ps rest : List Pair} {innerEs es : Table}
      (inside : Pairs (p :: inner) innerEs) (others : Pairs ps es) (new : k ∉ keys es)
      (mixed : Mixed (inner.map (Pair.below k)) ps rest) :
      Pairs (p.below k :: rest) ((k, .ofEntries innerEs) :: es)

/-- No key occurs in both tables. -/
def Apart (es es' : Table) : Prop :=
  ∀ key ∈ keys es, key ∉ keys es'

/-- Sections and the table that they make. The header of a table stands before
or behind those of the tables inside it, or it is left out where they are. -/
inductive Sections : List Section → Table → Prop where
  | nil : Sections [] []
  | opened {k : String} {ps : List Pair} {inner ss rest : List Section} {own innerEs es : Table}
      (pairs : Pairs ps own) (inside : Sections inner innerEs) (apart : Apart own innerEs)
      (others : Sections ss es) (new : k ∉ keys es)
      (mixed : Mixed (inner.map (Section.below k)) ss rest) :
      Sections (⟨false, [], k, ps⟩ :: rest) ((k, .ofEntries (own ++ innerEs)) :: es)
  | implied {k : String} {s : Section} {inner ss rest : List Section} {innerEs es : Table}
      (inside : Sections (s :: inner) innerEs) (others : Sections ss es) (new : k ∉ keys es)
      (mixed : Mixed (inner.map (Section.below k)) ss rest) :
      Sections (s.below k :: rest) ((k, .ofEntries innerEs) :: es)
  | late {k : String} {s : Section} {ps : List Pair} {inner ss rest : List Section}
      {innerEs own es : Table} (inside : Sections (s :: inner) innerEs) (pairs : Pairs ps own)
      (apart : Apart innerEs own) (others : Sections ss es) (new : k ∉ keys es)
      (mixed : Mixed (inner.map (Section.below k) ++ [⟨false, [], k, ps⟩]) ss rest) :
      Sections (s.below k :: rest) ((k, .ofEntries (innerEs ++ own)) :: es)

/-! ## Numbers -/

/-- Digits, with or without single underscores between them. -/
inductive DigitsText (isDigit : Char → Bool) : List Char → List Char → Prop where
  | last {d : Char} (digit : isDigit d = true) : DigitsText isDigit [d] [d]
  | next {d : Char} {ds cs : List Char} (digit : isDigit d = true)
      (others : DigitsText isDigit ds cs) : DigitsText isDigit (d :: ds) (d :: cs)
  | underscore {d : Char} {ds cs : List Char} (digit : isDigit d = true)
      (others : DigitsText isDigit ds cs) : DigitsText isDigit (d :: ds) (d :: '_' :: cs)

abbrev DecimalsText :=
  DigitsText (isDigitOf 10)

/-- Digits without a needless zero in front. -/
inductive WholeText : List Char → List Char → Prop where
  | zero : WholeText ['0'] ['0']
  | digits {ds cs : List Char} (digits : DecimalsText ds cs) (first : ds.head? ≠ some '0') :
      WholeText ds cs

inductive SignText : Bool → List Char → Prop where
  | none : SignText false []
  | plus : SignText false ['+']
  | minus : SignText true ['-']

inductive PlacesText : Option (List Char) → List Char → Prop where
  | none : PlacesText none []
  | some {ds cs : List Char} (digits : DecimalsText ds cs) : PlacesText (some ds) ('.' :: cs)

inductive ExponentText : Option Int → List Char → Prop where
  | none : ExponentText none []
  | some {mark : Char} {negative : Bool} {s ds cs : List Char} (marks : mark = 'e' ∨ mark = 'E')
      (sign : SignText negative s) (digits : DecimalsText ds cs) :
      ExponentText (some (if negative then -natOfDigits 10 ds else natOfDigits 10 ds))
        (mark :: (s ++ cs))

/-- The letter behind a zero that stands for a base. -/
inductive BaseMark : Nat → Char → Prop where
  | sixteen : BaseMark 16 'x'
  | eight : BaseMark 8 'o'
  | two : BaseMark 2 'b'

inductive NumberText : Document → List Char → Prop where
  | integer {negative : Bool} {s ds cs : List Char} {d : Document} (sign : SignText negative s)
      (whole : WholeText ds cs) (value : integer? negative ds = some d) : NumberText d (s ++ cs)
  | real {negative : Bool} {s ds cs ps es : List Char} {places : Option (List Char)}
      {exponent : Option Int} {d : Document} (sign : SignText negative s) (whole : WholeText ds cs)
      (fraction : PlacesText places ps) (power : ExponentText exponent es)
      (more : places.isSome ∨ exponent.isSome)
      (value : real? negative (ds ++ places.getD []) (exponent.getD 0 - (places.getD []).length) =
        some d) : NumberText d (s ++ (cs ++ (ps ++ es)))
  | infinite {negative : Bool} {s : List Char} (sign : SignText negative s) :
      NumberText (.real (if negative then -(1.0 / 0.0) else 1.0 / 0.0)) (s ++ ['i', 'n', 'f'])
  | undefined {negative : Bool} {s : List Char} (sign : SignText negative s) :
      NumberText (.real (0.0 / 0.0)) (s ++ ['n', 'a', 'n'])
  | based {base : Nat} {mark : Char} {ds cs : List Char} (marks : BaseMark base mark)
      (digits : DigitsText (isDigitOf base) ds cs) (size : natOfDigits base ds < 2 ^ 63) :
      NumberText (.integer (natOfDigits base ds)) ('0' :: mark :: cs)

/-! ## Values -/

/-- A value without parts: a truth value, a text on one line or a number. -/
inductive ScalarText : Document → List Char → Prop where
  | yes : ScalarText (.truth true) ['t', 'r', 'u', 'e']
  | no : ScalarText (.truth false) ['f', 'a', 'l', 's', 'e']
  | text {s : String} {cs : List Char} (quoted : QuotedText s cs) : ScalarText (.text s) cs
  | number {d : Document} {cs : List Char} (number : NumberText d cs) : ScalarText d cs

/-- What a piece of text stands for: a value, or what stands inside the
brackets of a list or of a table on one line. -/
inductive Part where
  | value (d : Document)
  | items (ds : List Document)
  | pairs (ps : List Pair)

/-- A piece of text whose lists and tables are nested at most so deep. A key has
at most `limit` parts. -/
inductive Writes (limit : ℕ) : ℕ → Part → List Char → Prop where
  | scalar {n : ℕ} {d : Document} {cs : List Char} (text : ScalarText d cs) :
      Writes limit n (.value d) cs
  | list {n : ℕ} {ds : List Document} {cs : List Char} (inner : Writes limit n (.items ds) cs) :
      Writes limit (n + 1) (.value (.list ds .loose)) ('[' :: (cs ++ [']']))
  | emptyTable {n : ℕ} {b : List Char} (blanks : Blanks b) :
      Writes limit (n + 1) (.value (.ofEntries [])) ('\x7b' :: (b ++ ['\x7d']))
  | table {n : ℕ} {ps : List Pair} {es : Table} {cs : List Char}
      (inner : Writes limit n (.pairs ps) cs) (gives : Pairs ps es) :
      Writes limit (n + 1) (.value (.ofEntries es)) ('\x7b' :: (cs ++ ['\x7d']))
  | noItem {n : ℕ} {cs : List Char} (space : Space cs) : Writes limit n (.items []) cs
  | lastItem {n : ℕ} {d : Document} {sp cs sp' : List Char} (space : Space sp)
      (value : Writes limit n (.value d) cs) (space' : Space sp') :
      Writes limit n (.items [d]) (sp ++ (cs ++ sp'))
  | item {n : ℕ} {d : Document} {ds : List Document} {sp cs sp' rest : List Char}
      (space : Space sp) (value : Writes limit n (.value d) cs) (space' : Space sp')
      (others : Writes limit n (.items ds) rest) :
      Writes limit n (.items (d :: ds)) (sp ++ (cs ++ (sp' ++ ',' :: rest)))
  | lastPair {n : ℕ} {p : Pair} {ks b cs b' : List Char}
      (key : KeyText (p.path ++ [p.key]) ks) (short : p.path.length < limit)
      (blanks : Blanks b) (value : Writes limit n (.value p.value) cs) (blanks' : Blanks b') :
      Writes limit n (.pairs [p]) (ks ++ '=' :: (b ++ (cs ++ b')))
  | pair {n : ℕ} {p : Pair} {ps : List Pair} {ks b cs b' rest : List Char}
      (key : KeyText (p.path ++ [p.key]) ks) (short : p.path.length < limit)
      (blanks : Blanks b) (value : Writes limit n (.value p.value) cs) (blanks' : Blanks b')
      (others : Writes limit n (.pairs ps) rest) :
      Writes limit n (.pairs (p :: ps)) (ks ++ '=' :: (b ++ (cs ++ (b' ++ ',' :: rest))))

/-! ## Lines -/

inductive StatementText (limit : ℕ) : Statement → List Char → Prop where
  | pair {p : Pair} {ks b cs : List Char} (key : KeyText (p.path ++ [p.key]) ks)
      (short : p.path.length < limit) (blanks : Blanks b)
      (value : Writes limit limit (.value p.value) cs) :
      StatementText limit (.pair p) (ks ++ '=' :: (b ++ cs))
  | header {path : List String} {key : String} {ks : List Char}
      (keys : KeyText (path ++ [key]) ks) (short : path.length < limit) :
      StatementText limit (.header false path key) ('[' :: (ks ++ [']']))

/-- Lines with a statement, a comment or nothing; the last one may have no line end. -/
inductive LinesText (limit : ℕ) : List Statement → List Char → Prop where
  | done {b comment : List Char} (blanks : Blanks b) (comment_text : Comment comment) :
      LinesText limit [] (b ++ comment)
  | skip {ss : List Statement} {b comment e cs : List Char} (blanks : Blanks b)
      (comment_text : Comment comment) (ends : LineEnd e) (rest : LinesText limit ss cs) :
      LinesText limit ss (b ++ (comment ++ (e ++ cs)))
  | last {s : Statement} {b cs b' comment : List Char} (blanks : Blanks b)
      (statement : StatementText limit s cs) (blanks' : Blanks b')
      (comment_text : Comment comment) :
      LinesText limit [s] (b ++ (cs ++ (b' ++ comment)))
  | line {s : Statement} {ss : List Statement} {b cs b' comment e rest : List Char}
      (blanks : Blanks b) (statement : StatementText limit s cs) (blanks' : Blanks b')
      (comment_text : Comment comment) (ends : LineEnd e) (others : LinesText limit ss rest) :
      LinesText limit (s :: ss) (b ++ (cs ++ (b' ++ (comment ++ (e ++ rest)))))

def Section.statements (s : Section) : List Statement :=
  .header s.repeated s.path s.key :: s.pairs.map .pair

/-- A whole text that stands for a table: its own pairs come before all sections.
Neither is a value nested deeper than the limit, nor has a key more parts. -/
def IsToml (limit : ℕ) (d : Document) (text : String) : Prop :=
  ∃ ps ss own inner, LinesText limit (ps.map .pair ++ ss.flatMap Section.statements) text.toList ∧
    Pairs ps own ∧ Sections ss inner ∧ Apart own inner ∧ d = .ofEntries (own ++ inner)

end GrowthCurve.Toml
