import EventQuery.Cli.Arguments
import EventQuery.Number.Reader
import EventQuery.Number.Width

/-!
The commands and what can be chosen for them. Each choice is made at most once.
-/
namespace EventQuery.Cli

inductive OutputFormat where
  | text | json
  deriving DecidableEq, Repr

/-- When reports are coloured; `auto` is on a terminal. -/
inductive ColorChoice where
  | auto | always | never
  deriving DecidableEq, Repr

namespace ColorChoice

def isColored (choice : ColorChoice) (terminal : Bool) : Bool :=
  match choice with
  | auto => terminal
  | always => true
  | never => false

end ColorChoice

structure Choices where
  operand : Option String
  schema : Option String
  config : Option String
  timeZone : Option String
  maxDepth : Option Nat
  /-- The steps that a pattern may name. -/
  steps : Option (List Int64)
  format : Option OutputFormat
  color : Option ColorChoice
  /-- Constants stay unfolded. -/
  noFold : Option Unit
  /-- A program is shown as it is read. -/
  raw : Option Unit
  /-- The tree is shown. -/
  explain : Option Unit
  deriving Repr

namespace Choices

def none : Choices :=
  ⟨.none, .none, .none, .none, .none, .none, .none, .none, .none, .none, .none⟩

end Choices

/-! ### Values -/

/-- A value where none was chosen. -/
def once (old new : Option α) : Option (Option α) :=
  if old.isSome then none else new.map some

/-- A path of a file; `-` is the standard input. -/
def path? (text : String) : Option String := if text.isEmpty then none else some text

def integer? (text : String) : Option Int64 :=
  (Number.Reader.integer? text.toList).bind Number.Width.int64?

/-- A word of 32 bits without sign. -/
def depth? (text : String) : Option Nat :=
  (integer? text).bind fun depth =>
    if 0 ≤ depth.toInt ∧ depth.toInt < 0x100000000 then some depth.toInt.toNat else none

/-- The parts between separators; `part` holds what was read of the first, reversed. -/
def partsFrom (separator : Char) (part : List Char) : List Char → List String
  | [] => [String.ofList part.reverse]
  | c :: rest =>
    if c = separator then String.ofList part.reverse :: partsFrom separator [] rest
    else partsFrom separator (c :: part) rest

/-- The parts of a text between separators, one more than there are separators. -/
def parts (separator : Char) (text : String) : List String := partsFrom separator [] text.toList

def integers? (text : String) : Option (List Int64) := (parts ',' text).mapM integer?

def format? (text : String) : Option OutputFormat :=
  if text = "motif" then some .text else if text = "json" then some .json else none

def color? (text : String) : Option ColorChoice :=
  if text = "auto" then some .auto
  else if text = "always" then some .always
  else if text = "never" then some .never
  else none

/-! ### Options -/

def schemaOption : CommandOption Choices :=
  ⟨"schema", .value false, fun text choices =>
    (once choices.schema (path? text)).map fun schema => { choices with schema }⟩

def configOption : CommandOption Choices :=
  ⟨"config", .value false, fun text choices =>
    (once choices.config (path? text)).map fun config => { choices with config }⟩

def timeZoneOption : CommandOption Choices :=
  ⟨"time-zone", .value false, fun text choices =>
    (once choices.timeZone (some text)).map fun timeZone => { choices with timeZone }⟩

def maxDepthOption : CommandOption Choices :=
  ⟨"max-depth", .value false, fun text choices =>
    (once choices.maxDepth (depth? text)).map fun maxDepth => { choices with maxDepth }⟩

def stepsOption : CommandOption Choices :=
  ⟨"steps", .value true, fun text choices =>
    (once choices.steps (integers? text)).map fun steps => { choices with steps }⟩

def formatOption : CommandOption Choices :=
  ⟨"format", .value false, fun text choices =>
    (once choices.format (format? text)).map fun format => { choices with format }⟩

def colorOption : CommandOption Choices :=
  ⟨"color", .value false, fun text choices =>
    (once choices.color (color? text)).map fun color => { choices with color }⟩

def noFoldOption : CommandOption Choices :=
  ⟨"no-fold", .flag, fun _ choices =>
    (once choices.noFold (some ())).map fun noFold => { choices with noFold }⟩

def rawOption : CommandOption Choices :=
  ⟨"raw", .flag, fun _ choices =>
    (once choices.raw (some ())).map fun raw => { choices with raw }⟩

def explainOption : CommandOption Choices :=
  ⟨"explain", .flag, fun _ choices =>
    (once choices.explain (some ())).map fun explain => { choices with explain }⟩

/-- The options of commands that compile. -/
def sessionOptions : List (CommandOption Choices) :=
  [schemaOption, configOption, timeZoneOption, maxDepthOption, noFoldOption, colorOption]

/-! ### Commands -/

inductive Command where
  | check | render | explain | fold | pattern
  deriving DecidableEq, Repr

namespace Command

def all : List Command := [check, render, explain, fold, pattern]

def name : Command → String
  | check => "check"
  | render => "render"
  | explain => "explain"
  | fold => "fold"
  | pattern => "pattern"

def options : Command → List (CommandOption Choices)
  | check => sessionOptions
  | render => formatOption :: rawOption :: sessionOptions
  | explain => rawOption :: sessionOptions
  | fold => formatOption :: explainOption :: sessionOptions
  | pattern => [stepsOption, explainOption, colorOption]

/-- Whether the operand is the path of a program; it is a text otherwise. -/
def takesProgram : Command → Bool
  | check => true
  | render => true
  | explain => true
  | fold => false
  | pattern => false

def usage (command : Command) : Usage Choices where
  options := command.options
  dashes := !command.takesProgram
  hasOperand choices := choices.operand.isSome
  chooseOperand text choices :=
    let operand := if command.takesProgram then path? text else some text
    operand.map fun operand => { choices with operand := some operand }

end Command

/-- A command with its operand and what was chosen for it. -/
structure Invocation where
  command : Command
  operand : String
  choices : Choices
  deriving Repr

namespace Invocation

/-- The call of a command with the words behind its name. -/
def ofCommand (command : Command) (words : List String) : Except Refusal Invocation := do
  let choices ← command.usage.read ⟨.none, none⟩ words
  match choices.operand with
  | some operand => return ⟨command, operand, choices⟩
  | none => throw .unusable

/-- Help about the command that words name. -/
def helpAbout (words : List String) : Refusal :=
  match words with
  | [] => .help
  | [word] => if Command.all.any (·.name == word) || word == "help" then .help else .unusable
  | _ => .unusable

/-- The call that all words of a command line make. -/
def ofWords : List String → Except Refusal Invocation
  | [] => .error .unusable
  | word :: rest => do
    if let some command := Command.all.find? (·.name == word) then
      return ← ofCommand command rest
    if word = "help" then throw (helpAbout rest)
    match Word.ofText word with
    | .long "help" none => throw .help
    | .long "verbose" none => ofWords rest
    | .letters letters => do
      checkLetters letters
      ofWords rest
    | _ => throw .unusable

end Invocation

end EventQuery.Cli
