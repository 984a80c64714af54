import GrowthCurve.Text.Hexadecimal

/-!
# Blanks, comments, texts and keys in TOML

A text stands on one line in single quotes or goes over several lines in triple
quotes. Between apostrophes every character stands for itself, between quotation
marks there are escapes.
-/

namespace GrowthCurve.Toml

open Text

/-- Reads the start of a text: a value and what follows it. -/
abbrev Reader (α : Type) := List Char → Option (α × List Char)

/-! ## Between values -/

def isBlank (c : Char) : Bool :=
  c == ' ' || c == '\t'

def skipBlanks (cs : List Char) : List Char :=
  cs.dropWhile isBlank

/-- Any character but control characters; the tab is none of them. -/
def isPrintable (c : Char) : Bool :=
  c == '\t' || (0x20 ≤ c.toNat && c.toNat ≠ 0x7F)

/-- The text after a line end. A carriage return ends no line by itself. -/
def afterLineEnd? : List Char → Option (List Char)
  | '\n' :: rest => some rest
  | '\r' :: '\n' :: rest => some rest
  | _ => none

/-- The text after the end of a line, which may hold blanks and a comment. -/
def finishLine? (cs : List Char) : Option (List Char) :=
  let rest := match skipBlanks cs with
    | '#' :: comment => comment.dropWhile isPrintable
    | rest => rest
  if rest.isEmpty then some [] else afterLineEnd? rest

/-- Skips blanks, line ends and comments that end with their line. -/
def skipSpace? (inComment : Bool) : List Char → Option (List Char)
  | [] => if inComment then none else some []
  | '\n' :: rest => skipSpace? false rest
  | '\r' :: '\n' :: rest => skipSpace? false rest
  | c :: rest =>
    if inComment then if isPrintable c then skipSpace? true rest else none
    else if isBlank c then skipSpace? false rest
    else if c = '#' then skipSpace? true rest
    else some (c :: rest)

/-! ## Texts -/

/-- The character that a letter after a backslash stands for. -/
def escaped? : Char → Option Char
  | 'b' => some '\x08'
  | 't' => some '\t'
  | 'n' => some '\n'
  | 'f' => some '\x0c'
  | 'r' => some '\r'
  | '"' => some '"'
  | '\\' => some '\\'
  | _ => none

/-- The character of a code point in hexadecimal digits. -/
def codePoint? (digits : List Char) : Option Char := do
  let n ← hexNumber? digits
  if n.isValidChar then return Char.ofNat n else none

/-- Replaces the escapes of a text. A backslash at the end of a line joins the
lines: after it blanks and line ends are dropped, which `joining` stands for. -/
def unescape? (joining : Bool) : List Char → Option (List Char)
  | [] => some []
  | '\\' :: 'u' :: a :: b :: c :: d :: rest => do
    let x ← codePoint? [a, b, c, d]
    let others ← unescape? false rest
    return x :: others
  | '\\' :: 'U' :: a :: b :: c :: d :: e :: f :: g :: h :: rest => do
    let x ← codePoint? [a, b, c, d, e, f, g, h]
    let others ← unescape? false rest
    return x :: others
  | '\\' :: c :: rest =>
    match escaped? c with
    | some x => (unescape? false rest).map (x :: ·)
    | none => if (skipBlanks (c :: rest)).head? = some '\n' then unescape? true rest else none
  | c :: rest =>
    if joining && (isBlank c || c == '\n') then unescape? true rest
    else if c = '\\' then none
    else (unescape? false rest).map (c :: ·)

/-- The characters up to the closing quote of a line. A character after a
backslash is kept, which `kept` stands for. -/
def takeLine (quote : Char) (escapes : Bool) : (kept : Bool) → Reader (List Char)
  | _, [] => none
  | kept, c :: rest =>
    if c = quote && !kept then some ([], rest)
    else if isPrintable c then
      (takeLine quote escapes (escapes && c == '\\' && !kept) rest).map fun r => (c :: r.1, r.2)
    else none

/-- What a closing triple quote leaves: up to two further quotes belong to the text. -/
def closeLines (quote : Char) : List Char → List Char × List Char
  | a :: b :: rest =>
    if a = quote ∧ b = quote then ([a, b], rest)
    else if a = quote then ([a], b :: rest)
    else ([], a :: b :: rest)
  | [a] => if a = quote then ([a], []) else ([], [a])
  | [] => ([], [])

/-- The characters up to the closing triple quote. Every line end becomes a line
feed. A quote after a backslash is kept, which `kept` stands for. -/
def takeLines (quote : Char) (escapes : Bool) : (kept : Bool) → Reader (List Char)
  | _, [] => none
  | kept, c :: rest =>
    if c = '\r' then if rest.head? = some '\n' then takeLines quote escapes kept rest else none
    else if c = quote && !kept && rest.take 2 == [quote, quote] then
      some (closeLines quote (rest.drop 2))
    else if c = '\n' || isPrintable c then
      (takeLines quote escapes (escapes && c == '\\' && !kept) rest).map fun r => (c :: r.1, r.2)
    else none

/-- The text after a line end at the very start. -/
def dropLineEnd (cs : List Char) : List Char :=
  (afterLineEnd? cs).getD cs

/-- Replaces escapes where there are any. -/
def finishText (escapes : Bool) (body : List Char × List Char) : Option (String × List Char) := do
  let cs ← if escapes then unescape? false body.1 else some body.1
  return (String.ofList cs, body.2)

/-- Reads a text on one line after its opening quote. -/
def readLine (quote : Char) (cs : List Char) : Option (String × List Char) := do
  let body ← takeLine quote (quote == '"') false cs
  finishText (quote == '"') body

/-- Reads a text after its opening quote, which may be the first of three. -/
def readText (quote : Char) (cs : List Char) : Option (String × List Char) :=
  match cs with
  | a :: b :: rest =>
    if a = quote ∧ b = quote then do
      let body ← takeLines quote (quote == '"') false (dropLineEnd rest)
      finishText (quote == '"') body
    else readLine quote cs
  | _ => readLine quote cs

/-! ## Keys -/

def isKeyChar (c : Char) : Bool :=
  ('a' ≤ c && c ≤ 'z') || ('A' ≤ c && c ≤ 'Z') || ('0' ≤ c && c ≤ '9') || c == '_' || c == '-'

/-- Reads one part of a key. -/
def readKeyPart : Reader String
  | '"' :: rest => readLine '"' rest
  | '\'' :: rest => readLine '\'' rest
  | cs =>
    let name := cs.takeWhile isKeyChar
    if name.isEmpty then none else some (String.ofList name, cs.dropWhile isKeyChar)

/-- Reads a key of at most `limit` parts with points between them. -/
def readKeyParts : (limit : Nat) → Reader (List String)
  | 0, _ => none
  | limit + 1, cs => do
    let (part, rest) ← readKeyPart (skipBlanks cs)
    match skipBlanks rest with
    | '.' :: rest =>
      let (parts, rest) ← readKeyParts limit rest
      return (part :: parts, rest)
    | rest => return ([part], rest)

/-- How deep values may be nested, and how many parts a key may have. -/
def nestingLimit : Nat := 79

def readKey : Reader (List String) :=
  readKeyParts nestingLimit

end GrowthCurve.Toml
