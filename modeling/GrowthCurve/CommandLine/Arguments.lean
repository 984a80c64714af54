import GrowthCurve.CommandLine.Grammar
import GrowthCurve.Decimal.Reading
import GrowthCurve.Fit.Text
import GrowthCurve.Path

/-!
# The command line

The two commands with their options. The options for settings files and for
tracing may stand before and after the name of the command.
-/

namespace GrowthCurve.CommandLine

structure Common where
  debug : Bool := false
  config : Option Path := none
deriving Repr, DecidableEq, Inhabited

/-- The options given after the name of a command win. -/
def Common.merge (before after : Common) : Common where
  debug := before.debug || after.debug
  config := after.config <|> before.config

inductive Format where
  | text
  | json
deriving Repr, DecidableEq, Inhabited

def Format.ofName? : String → Option Format
  | "text" => some .text
  | "json" => some .json
  | _ => none

/-- Where the figure goes, and whether the run waits for it to be looked at. -/
structure FigureArguments where
  output : Path := ⟨"benchfit.svg"⟩
  noWait : Bool := false
deriving Repr, DecidableEq, Inhabited

structure AnalyzeArguments where
  input : Path := ⟨""⟩
  model : Option Model := none
  degree : Option Int := none
  derivativeDegree : Option Int := none
  ceiling : Option Float := none
  noClip : Bool := false
  format : Format := .text
  figure : FigureArguments := {}
deriving Repr, DecidableEq, Inhabited

structure CompareArguments where
  inputs : List Path := []
  labels : List String := []
  figure : FigureArguments := {}
deriving Repr, DecidableEq, Inhabited

inductive Command where
  | analyze (arguments : AnalyzeArguments)
  | compare (arguments : CompareArguments)
deriving Repr, DecidableEq

structure Arguments where
  common : Common
  command : Command
deriving Repr, DecidableEq

/-! ## Values -/

/-- A path is any text but the empty one. -/
def readPath (s : String) : Except UsageError Path :=
  if s.isEmpty then .error .invalidValue else .ok ⟨s⟩

def readInteger (s : String) : Except UsageError Int :=
  (Decimal.readInteger s.toList).mapError fun _ => .unreadableValue

def readReal (s : String) : Except UsageError Float :=
  (Decimal.readReal s.toList).mapError fun _ => .unreadableValue

def readName {α : Type} (ofName? : String → Option α) (s : String) : Except UsageError α :=
  match ofName? s with
  | some a => .ok a
  | none => .error .invalidValue

def storing {σ α : Type} (read : String → Except UsageError α) (set : α → σ → σ) : Action σ :=
  .value fun v s => (read v).map fun a => set a s

/-! ## Grammars -/

/-- A part of the command line: the common options in it and its own ones. -/
structure Part (α : Type) where
  common : Common := {}
  own : α

def commonSwitches {α : Type} : List (Switch (Part α)) :=
  [{ long := "debug",
     action := .flag fun p => { p with common := { p.common with debug := true } } },
   { long := "config",
     action := storing readPath fun v p =>
       { p with common := { p.common with config := some v } } },
   { long := "help", short := some 'h', action := .help }]

def figureSwitches {α : Type} (change : (FigureArguments → FigureArguments) → α → α) :
    List (Switch (Part α)) :=
  [{ long := "output", short := some 'o',
     action := storing readPath fun v p =>
       { p with own := change ({ · with output := v }) p.own } },
   { long := "no-wait",
     action := .flag fun p => { p with own := change ({ · with noWait := true }) p.own } }]

def topGrammar : Grammar (Part Unit) where
  switches := commonSwitches ++ [{ long := "version", short := some 'V', action := .version }]
  operands := .none
  commands := ["analyze", "compare", "help"]

def analyzeGrammar : Grammar (Part AnalyzeArguments) where
  switches := commonSwitches ++
    figureSwitches (fun change a => { a with figure := change a.figure }) ++
    [{ long := "model", short := some 'm',
       action := storing (readName Model.ofName?) fun v p => { p with own.model := some v } },
     { long := "degree", short := some 'd', negative := true,
       action := storing readInteger fun v p => { p with own.degree := some v } },
     { long := "derivative-degree", negative := true,
       action := storing readInteger fun v p => { p with own.derivativeDegree := some v } },
     { long := "ceiling", action := storing readReal fun v p => { p with own.ceiling := some v } },
     { long := "no-clip", action := .flag fun p => { p with own.noClip := true } },
     { long := "format",
       action := storing (readName Format.ofName?) fun v p => { p with own.format := v } }]
  operands := .one fun v p => (readPath v).map fun path => { p with own.input := path }

def compareGrammar : Grammar (Part CompareArguments) where
  switches := commonSwitches ++
    figureSwitches (fun change a => { a with figure := change a.figure }) ++
    [{ long := "label", short := some 'l', repeats := true,
       action := storing (Except.ok ·) fun v p => { p with own.labels := p.own.labels ++ [v] } }]
  operands := .several fun v p =>
    (readPath v).map fun path => { p with own.inputs := p.own.inputs ++ [path] }

/-! ## Reading -/

def readPart {α : Type} (g : Grammar (Part α)) (start : α) (args : List String) :
    Except UsageError (Progress (Part α)) := do
  let (p, _) ← g.read { record := { own := start } } args
  p.settle g

/-- Reads the part of the command that analyses. A ceiling and no clipping
exclude each other. -/
def readAnalyze (args : List String) : Except UsageError (Part AnalyzeArguments) := do
  let p ← readPart analyzeGrammar {} args
  if p.given.contains "ceiling" && p.given.contains "no-clip" then throw .conflict
  if !p.full then throw .missingOperand
  return p.record

def readCompare (args : List String) : Except UsageError (Part CompareArguments) := do
  let p ← readPart compareGrammar {} args
  if p.record.own.inputs.isEmpty then throw .missingOperand
  return p.record

/-- Help may be wanted on a command. -/
def readHelp : List String → UsageError
  | [] => .helpWanted
  | [name] => if topGrammar.commands.contains name then .helpWanted else .unknownCommand
  | _ => .unknownCommand

/-- Reads a command line without the name of the program. -/
def Arguments.read (args : List String) : Except UsageError Arguments := do
  let (p, rest) ← topGrammar.read { record := { own := () } } args
  match rest with
  | none =>
    let p ← p.settle topGrammar
    throw (if p.given.isEmpty then .nothingWanted else .missingCommand)
  | some (name, rest) =>
    match name with
    | "analyze" =>
      let part ← readAnalyze rest
      let p ← p.settle topGrammar
      return ⟨p.record.common.merge part.common, .analyze part.own⟩
    | "compare" =>
      let part ← readCompare rest
      let p ← p.settle topGrammar
      return ⟨p.record.common.merge part.common, .compare part.own⟩
    | _ => throw (readHelp rest)

end GrowthCurve.CommandLine
