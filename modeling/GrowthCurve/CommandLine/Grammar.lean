/-!
# Grammars of command lines

A command line holds options, which start with hyphens, and operands. A grammar
says what each of them does to a record of type `σ`.

An option that takes a value finds it behind an equals sign, right behind its
letter, or in the next argument. A value in an argument of its own is settled
only when the next option or the end of the line shows that it is complete, so
an unknown option is reported before a bad value in front of it.
-/

namespace GrowthCurve.CommandLine

/-- Why a command line stands for no run. -/
inductive UsageError where
  /-- A value that is missing, empty or none of the possible ones. -/
  | invalidValue
  | unreadableValue
  /-- A value for an option that takes none. -/
  | tooManyValues
  | tooFewValues
  | unknownArgument
  | unknownCommand
  | missingCommand
  | missingOperand
  | conflict
  | helpWanted
  | versionWanted
  | nothingWanted
deriving Repr, DecidableEq

inductive Action (σ : Type) where
  | flag (set : σ → σ)
  | value (set : String → σ → Except UsageError σ)
  | help
  | version

/-- An option, with a long name and maybe a letter. -/
structure Switch (σ : Type) where
  long : String
  short : Option Char := none
  action : Action σ
  /-- It may be given more than once. -/
  repeats : Bool := false
  /-- The next argument is its value even if it is a negative number. -/
  negative : Bool := false

inductive Operands (σ : Type) where
  | none
  | one (set : String → σ → Except UsageError σ)
  /-- Operands side by side, at least two of them. -/
  | several (add : String → σ → Except UsageError σ)

structure Grammar (σ : Type) where
  switches : List (Switch σ)
  operands : Operands σ
  /-- The first operand that is one of these names ends the line of this grammar. -/
  commands : List String := []

/-- What was given last and is not settled yet. -/
inductive Pending (σ : Type) where
  | switch (s : Switch σ) (value : Option String)
  | operands (values : List String)

/-- A command line that is read up to some argument. -/
structure Progress (σ : Type) where
  record : σ
  /-- The long names of the options that are settled. -/
  given : List String := []
  pending : Option (Pending σ) := none
  /-- The only operand was given. -/
  full : Bool := false
  /-- After `--` there are only operands. -/
  operandsOnly : Bool := false

namespace Progress

variable {σ : Type}

def note (p : Progress σ) (s : Switch σ) : Except UsageError (Progress σ) :=
  if !s.repeats && p.given.contains s.long then .error .conflict
  else .ok { p with given := s.long :: p.given }

/-- Settles an option with or without a value. -/
def settleSwitch (p : Progress σ) (s : Switch σ) (value : Option String) :
    Except UsageError (Progress σ) :=
  match s.action, value with
  | .help, _ => .error .helpWanted
  | .version, _ => .error .versionWanted
  | .flag set, _ => do
    let p ← p.note s
    return { p with record := set p.record }
  | .value _, none => .error .invalidValue
  | .value set, some v => do
    let p ← p.note s
    let record ← set v p.record
    return { p with record := record }

def settleOperands (g : Grammar σ) (p : Progress σ) (values : List String) :
    Except UsageError (Progress σ) :=
  match g.operands with
  | .none => .ok p
  | .one set => do
    let record ← values.foldlM (fun r v => set v r) p.record
    return { p with record := record }
  | .several add =>
    if values.length < 2 then .error .tooFewValues
    else do
      let record ← values.foldlM (fun r v => add v r) p.record
      return { p with record := record }

def settle (g : Grammar σ) (p : Progress σ) : Except UsageError (Progress σ) :=
  match p.pending with
  | none => .ok p
  | some (.switch s value) => { p with pending := none }.settleSwitch s value
  | some (.operands values) => settleOperands g { p with pending := none } values

/-- The option that waits for the next argument. -/
def waiting? (p : Progress σ) : Option (Switch σ) :=
  match p.pending with
  | some (.switch s none) => some s
  | _ => none

/-- Takes an option whose value, if it takes one, is attached or follows. -/
def takeSwitch (g : Grammar σ) (p : Progress σ) (s : Switch σ) (attached : Option String) :
    Except UsageError (Progress σ) := do
  let p ← p.settle g
  match s.action, attached with
  | .value _, none => return { p with pending := some (.switch s none) }
  | _, _ => p.settleSwitch s attached

end Progress

namespace Grammar

variable {σ : Type}

def findLong? (g : Grammar σ) (name : String) : Option (Switch σ) :=
  g.switches.find? fun s => s.long = name

def findShort? (g : Grammar σ) (letter : Char) : Option (Switch σ) :=
  g.switches.find? fun s => s.short = some letter

def takesValue (s : Switch σ) : Bool :=
  match s.action with
  | .value _ => true
  | _ => false

/-- Splits a long option at its first equals sign. -/
def splitLong (body : List Char) : String × Option String :=
  let name := String.ofList (body.takeWhile (· ≠ '='))
  match body.dropWhile (· ≠ '=') with
  | _ :: value => (name, some (String.ofList value))
  | [] => (name, none)

/-- Takes a long option, given without its hyphens. -/
def takeLong (g : Grammar σ) (p : Progress σ) (body : List Char) :
    Except UsageError (Progress σ) :=
  let (name, value) := splitLong body
  match g.findLong? name with
  | none => .error .unknownArgument
  | some s =>
    if !takesValue s && value.isSome then .error .tooManyValues
    else p.takeSwitch g s value

/-- Takes letters that follow one hyphen. What comes after a letter that takes
a value is its value, with or without an equals sign. -/
def takeLetters (g : Grammar σ) : Progress σ → List Char → Except UsageError (Progress σ)
  | p, [] => .ok p
  | p, c :: rest =>
    match g.findShort? c with
    | none => .error .unknownArgument
    | some s =>
      if takesValue s then
        match rest with
        | [] => p.takeSwitch g s none
        | '=' :: value => p.takeSwitch g s (some (String.ofList value))
        | value => p.takeSwitch g s (some (String.ofList value))
      else do
        let p ← p.takeSwitch g s none
        takeLetters g p rest

def takeOperand (g : Grammar σ) (p : Progress σ) (arg : String) :
    Except UsageError (Progress σ) :=
  match g.operands with
  | .none =>
    .error (if p.operandsOnly && g.commands.contains arg then .unknownArgument else .unknownCommand)
  | .one _ =>
    if p.full then .error .unknownArgument
    else do
      let p ← p.settle g
      return { p with pending := some (.operands [arg]), full := true }
  | .several _ =>
    match p.pending with
    | some (.operands values) => .ok { p with pending := some (.operands (values ++ [arg])) }
    | _ => do
      let p ← p.settle g
      return { p with pending := some (.operands [arg]) }

/-- The text is an unsigned decimal number: digits, a point after the first of
them, and an exponent that is not empty. -/
def looksNumeric (cs : List Char) : Bool :=
  let isDigit (c : Char) : Bool := '0' ≤ c && c ≤ '9'
  let whole := cs.takeWhile isDigit
  let afterWhole := cs.dropWhile isDigit
  let rest := match afterWhole with
    | '.' :: more => if whole.isEmpty then afterWhole else more.dropWhile isDigit
    | _ => afterWhole
  match rest with
  | [] => true
  | 'e' :: digits => !whole.isEmpty && !digits.isEmpty && digits.all isDigit
  | _ => false

/-- The arguments of an option line, taken apart. -/
inductive Shape where
  | terminator
  | long (body : List Char)
  | letters (body : List Char)
  | operand

/-- What an argument looks like. A single hyphen is an operand. -/
def shape (arg : String) : Shape :=
  match arg.toList with
  | ['-', '-'] => .terminator
  | '-' :: '-' :: body => .long body
  | ['-'] => .operand
  | '-' :: body => .letters body
  | _ => .operand

/-- Takes an argument that is not the name of a command. -/
def takeArgument (g : Grammar σ) (p : Progress σ) (arg : String) :
    Except UsageError (Progress σ) :=
  if p.operandsOnly then g.takeOperand p arg
  else
    let plain : Except UsageError (Progress σ) :=
      match p.waiting? with
      | some s => .ok { p with pending := some (.switch s (some arg)) }
      | none => g.takeOperand p arg
    match shape arg with
    | .terminator => .ok { p with operandsOnly := true }
    | .long body => g.takeLong p body
    | .letters body =>
      match p.waiting? with
      | some s => if s.negative && looksNumeric body then plain else g.takeLetters p body
      | none => g.takeLetters p body
    | .operand => plain

/-- Reads arguments up to the end or the name of a command. The name and what
follows it come back. -/
def read (g : Grammar σ) : Progress σ → List String →
    Except UsageError (Progress σ × Option (String × List String))
  | p, [] => .ok (p, none)
  | p, arg :: rest =>
    if !p.operandsOnly && p.waiting?.isNone && g.commands.contains arg then
      .ok (p, some (arg, rest))
    else do
      let p ← g.takeArgument p arg
      g.read p rest

end Grammar

end GrowthCurve.CommandLine
