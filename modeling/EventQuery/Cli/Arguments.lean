/-!
The words of a command line. A word that starts with a dash names an option, unless
it can only be meant as a value: an option takes the next word as its value, and
what belongs to no option is the operand. After the word `--` there are no options.
Every command knows `--help` (`-h`) and `--verbose` (`-v`).
-/
namespace EventQuery.Cli

/-- Why words are not a call of a command. -/
inductive Refusal where
  /-- Help was asked for. -/
  | help
  | unusable
  deriving DecidableEq, Repr

/-! ### Words -/

inductive Word where
  /-- The word `--`. -/
  | separator
  /-- A word `--name` or `--name=value`. -/
  | long (name : String) (value : Option String)
  /-- A word like `-abc`. -/
  | letters (letters : List Char)
  | plain (text : String)
  deriving DecidableEq, Repr

namespace Word

/-- The name of a long option, and the value behind the first `=`. -/
def ofLong (text : List Char) : Word :=
  let name := String.ofList (text.takeWhile (· != '='))
  match text.dropWhile (· != '=') with
  | [] => .long name none
  | _ :: value => .long name (some (String.ofList value))

def ofText (text : String) : Word :=
  match text.toList with
  | ['-', '-'] => .separator
  | '-' :: '-' :: rest => ofLong rest
  | '-' :: letter :: rest => .letters (letter :: rest)
  | _ => .plain text

end Word

/-- Letters that each stand for an option; the first that asks for help ends them. -/
def checkLetters : List Char → Except Refusal Unit
  | [] => .ok ()
  | 'v' :: rest => checkLetters rest
  | 'h' :: _ => .error .help
  | _ => .error .unusable

def isLetter (c : Char) : Bool := c == 'v' || c == 'h'

/-! ### Options -/

inductive Parameterization where
  | flag
  /-- A value follows; `dashes` tells whether it may start with a dash anyway. -/
  | value (dashes : Bool)
  deriving DecidableEq, Repr

/-- An option of a command that collects choices of type `σ`. -/
structure CommandOption (σ : Type) where
  name : String
  parameterization : Parameterization
  /-- The choices with the value of the option, if it can have the value. The value of
  a flag is empty. -/
  choose : String → σ → Option σ

/-- The words that a command takes: options and one operand. -/
structure Usage (σ : Type) where
  options : List (CommandOption σ)
  /-- Whether the operand may start with a dash, if it is no option. -/
  dashes : Bool
  /-- Whether the operand is given. -/
  hasOperand : σ → Bool
  chooseOperand : String → σ → Option σ

namespace Usage

def option? (usage : Usage σ) (name : String) : Option (CommandOption σ) :=
  usage.options.find? fun option => option.name == name

def isOption (usage : Usage σ) (name : String) : Bool :=
  name == "help" || name == "verbose" || (usage.option? name).isSome

/-- Whether a word can only be meant as a value or an operand. -/
def isValue (usage : Usage σ) (choices : σ) : Word → Bool
  | .separator => false
  | .plain _ => true
  | .long name _ => usage.dashes && !usage.hasOperand choices && !usage.isOption name
  | .letters letters => usage.dashes && !usage.hasOperand choices && !letters.all isLetter

def orRefuse : Option σ → Except Refusal σ
  | some choices => .ok choices
  | none => .error .unusable

/-- The choices after an operand; there is at most one. -/
def takeOperand (usage : Usage σ) (choices : σ) (text : String) : Except Refusal σ :=
  if usage.hasOperand choices then .error .unusable
  else orRefuse (usage.chooseOperand text choices)

/-- What a word leaves: the choices, and an option that waits for its value. -/
structure State (σ : Type) where
  choices : σ
  waiting : Option (CommandOption σ)

/-- A long option, with the value that is attached to it. -/
def takeLong (usage : Usage σ) (choices : σ) (name : String) (value : Option String) :
    Except Refusal (State σ) := do
  match usage.option? name, value with
  | some option, value =>
    match option.parameterization, value with
    | .flag, none => return ⟨← orRefuse (option.choose "" choices), none⟩
    | .flag, some _ => throw .unusable
    | .value _, some value => return ⟨← orRefuse (option.choose value choices), none⟩
    | .value _, none => return ⟨choices, some option⟩
  | none, none =>
    if name = "help" then throw .help
    if name = "verbose" then return ⟨choices, none⟩
    throw .unusable
  | none, some _ => throw .unusable

/-- A word where no option waits for a value. -/
def takeWord (usage : Usage σ) (choices : σ) (text : String) : Except Refusal (State σ) := do
  let word := Word.ofText text
  if usage.isValue choices word then return ⟨← usage.takeOperand choices text, none⟩
  match word with
  | .long name value => usage.takeLong choices name value
  | .letters letters => do
    checkLetters letters
    return ⟨choices, none⟩
  | _ => throw .unusable

/-- The value that an option waits for. -/
def takeValue (usage : Usage σ) (choices : σ) (option : CommandOption σ) (text : String) :
    Except Refusal σ :=
  let word := Word.ofText text
  if option.parameterization = .value true || usage.isValue choices word then
    orRefuse (option.choose text choices)
  else .error .unusable

/-- The choices that words make, beginning at a state. -/
def read (usage : Usage σ) : State σ → List String → Except Refusal σ
  | ⟨choices, none⟩, [] => .ok choices
  | ⟨_, some _⟩, [] => .error .unusable
  | ⟨choices, some option⟩, text :: rest => do
    usage.read ⟨← usage.takeValue choices option text, none⟩ rest
  | ⟨choices, none⟩, text :: rest => do
    if Word.ofText text = .separator then rest.foldlM usage.takeOperand choices
    else usage.read (← usage.takeWord choices text) rest

end Usage

end EventQuery.Cli
