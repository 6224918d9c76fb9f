import EventQuery.Cli.Invocation
import EventQuery.Diagnostic.Report
import EventQuery.Json.Printer
import EventQuery.Json.Reader
import EventQuery.Pattern.Outline
import EventQuery.Pattern.Settle
import EventQuery.Pattern.Text
import EventQuery.Expression.Json
import EventQuery.Expression.Outline
import EventQuery.Expression.Text
import EventQuery.Reading.ExpressionReader
import EventQuery.Reading.PatternReader
import EventQuery.Schema.Json
import EventQuery.Session
import EventQuery.Statement.Json
import EventQuery.Statement.Outline
import EventQuery.Statement.Text

/-!
Running a command: the files and the standard input it reads go in, its exit code and
what it writes come out.
-/
namespace EventQuery.Cli

/-! ### Files -/

/-- Why a file has no text. -/
inductive FileError where
  | missing | denied | notDirectory | isDirectory | notText
  | other (reason : String)
  deriving DecidableEq, Repr

namespace FileError

def message : FileError → String
  | missing => "No such file or directory (os error 2)"
  | denied => "Permission denied (os error 13)"
  | notDirectory => "Not a directory (os error 20)"
  | isDirectory => "Is a directory (os error 21)"
  | notText => "stream did not contain valid UTF-8"
  | other reason => reason

end FileError

/-- What a command runs in. -/
structure World where
  /-- The text of the file at a path. -/
  file : String → Except FileError String
  /-- The standard input to its end. -/
  input : Except FileError String
  /-- Whether errors are written to a terminal. -/
  terminal : Bool

/-- The file that steps from a directory lead to, if the directory holds only `files`. -/
def fileAt (files : List (String × String)) : List String → Except FileError String
  | [] => .error .isDirectory
  | name :: rest =>
    match files.lookup name, rest with
    | some text, [] => .ok text
    | some _, _ => .error .notDirectory
    | none, _ => .error .missing

namespace World

/-- The world of a directory that holds only `files`, without a terminal. -/
def ofFiles (files : List (String × String)) (input : String) : World where
  file path :=
    if path.startsWith "/" then .error .missing
    else fileAt files ((parts '/' path).filter fun name => name != ".")
  input := .ok input
  terminal := false

end World

/-! ### Failures -/

inductive Failure where
  | file (path : String) (error : FileError)
  | json
  | schema (error : SchemaError)
  | diagnostic (diagnostic : Diagnostic)
  deriving Repr

namespace Failure

def ofSchema : SchemaError → Failure
  | .notJson _ => json
  | error => schema error

/-- The exit code after a failure: a program that crashed has one of its own. -/
def code : Failure → Nat
  | diagnostic it => if it.kind = .crash then 101 else 1
  | _ => 1

/-- The message of a failure that has no place in a text. -/
def line (message : String) : String := s!"error: {message}\n"

/-- A text that ends with a line break. -/
def ended (text : String) : String :=
  if text.toList.getLast? = some '\n' then text else text ++ "\n"

/-- What is told about a failure, over the text that its places are in. -/
def report (failure : Failure) (source : Option String) (colored : Bool) : String :=
  match failure with
  | file path error => line s!"failed to read '{path}': {error.message}"
  | json => line "invalid JSON"
  | schema error => line error.message
  | diagnostic it => ended (it.report source none colored)

end Failure

/-! ### Commands -/

/-- Steps of a command; the state is what is left of the standard input. -/
abbrev Run (α : Type) := StateT (Except FileError String) (Except Failure) α

namespace Run

def orFail (result : Except ε α) (failure : ε → Failure) : Run α :=
  match result with
  | .ok value => return value
  | .error error => throw (failure error)

/-- The text at a path. The standard input is empty once it is read. -/
def text (world : World) (path : String) : Run String := do
  if path = "-" then
    let input ← get
    set (Except.ok "" : Except FileError String)
    orFail input (.file "<stdin>")
  else orFail (world.file path) (.file path)

def json (world : World) (path : String) : Run Json := do
  orFail (Json.ofText (← text world path)) fun _ => .json

def program (world : World) (call : Invocation) : Run Program := do
  orFail (Program.ofJson (← json world call.operand)) fun _ => .json

/-- The settings of a file, with the choices of the call on top. -/
def config (world : World) (choices : Choices) : Run Config := do
  let config ← match choices.config with
    | some path => orFail (Config.ofJson (← json world path)) fun _ => .json
    | none => pure default
  return {
    zone := choices.timeZone.getD config.zone
    maxDepth := choices.maxDepth.getD config.maxDepth
    fold := config.fold && choices.noFold.isNone
  }

/-- The schema without a file: a single relation. -/
def bareSchema : Except SchemaError Schema := Schema.ofDeclaration (.mk "root" [] [])

def schema (world : World) (choices : Choices) : Run Schema := do
  match choices.schema with
  | some path => orFail (Schema.ofText (← text world path)) Failure.ofSchema
  | none => orFail bareSchema Failure.ofSchema

def session (world : World) (choices : Choices) : Run Session := do
  let config ← config world choices
  return { Session.ofSchema (← schema world choices) with config }

def compiled [ZoneTable] (world : World) (call : Invocation) : Run Program := do
  let program ← program world call
  let session ← session world call.choices
  orFail (session.compile program) fun error => .diagnostic error.diagnostic

/-- The program of a call, compiled unless it is wanted raw. -/
def shown [ZoneTable] (world : World) (call : Invocation) : Run Program :=
  if call.choices.raw.isSome then program world call else compiled world call

def fold [ZoneTable] (world : World) (call : Invocation) : Run String := do
  let expr ← orFail (Reading.readExpr call.operand) fun error => .diagnostic error.diagnostic
  let session ← session world call.choices
  let compiled ← orFail (session.compileExpr expr) fun error => .diagnostic error.diagnostic
  if call.choices.explain.isSome then return Failure.ended (compiled.outline 0)
  match call.choices.format with
  | some .json => return Failure.ended compiled.toJson.pretty
  | _ => return Failure.ended compiled.text

def pattern (call : Invocation) : Run String := do
  let pattern ← orFail (Reading.readPattern call.operand) fun error => .diagnostic error.diagnostic
  let known := call.choices.steps.getD pattern.stepIds
  let settled ← orFail (pattern.validate known) fun stopped => .diagnostic stopped.diagnostic
  return Failure.ended (if call.choices.explain.isSome then settled.outline 0 else settled.text)

/-- What a call writes. -/
def output [ZoneTable] (world : World) (call : Invocation) : Run String := do
  match call.command with
  | .check =>
    let _ ← compiled world call
    return ""
  | .render =>
    let program ← shown world call
    match call.choices.format with
    | some .json => return Failure.ended program.toJson.pretty
    | _ => return program.text 0
  | .explain => return (← shown world call).outline 0
  | .fold => fold world call
  | .pattern => pattern call

end Run

/-! ### Outcomes -/

/-- How a command ends. -/
structure Outcome where
  code : Nat
  stdout : String
  stderr : String
  deriving DecidableEq, Repr

namespace Invocation

/-- The text that the places of errors are in. -/
def source? (call : Invocation) : Option String :=
  if call.command.takesProgram then none else some call.operand

/-- The paths of the files that a call may read. -/
def paths (call : Invocation) : List String :=
  let program := if call.command.takesProgram then [call.operand] else []
  program ++ call.choices.config.toList ++ call.choices.schema.toList

def run [ZoneTable] (world : World) (call : Invocation) : Outcome :=
  match (Run.output world call).run world.input with
  | .ok (text, _) => ⟨0, text, ""⟩
  | .error failure =>
    let color := call.choices.color.getD .auto
    ⟨failure.code, "", failure.report call.source? (color.isColored world.terminal)⟩

end Invocation

/-- The commands by name. -/
def summary : String := "commands: " ++ ", ".intercalate (Command.all.map Command.name) ++ "\n"

namespace Refusal

def outcome : Refusal → Outcome
  | help => ⟨0, summary, ""⟩
  | unusable => ⟨2, "", "error: no command can be called like this\n" ++ summary⟩

end Refusal

/-- The outcome of a command line. -/
def run [ZoneTable] (world : World) (words : List String) : Outcome :=
  match Invocation.ofWords words with
  | .ok call => call.run world
  | .error refusal => refusal.outcome

end EventQuery.Cli
