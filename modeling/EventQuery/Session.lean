import EventQuery.Json.Reader
import EventQuery.Json.Record
import EventQuery.Statement.Bind
import EventQuery.Statement.Optimize
import EventQuery.Statement.Traversal
import EventQuery.Statement.Validate

/-!
Compilation in stages: the nesting is checked, then the tree is bound, validated and
optimized. Every stage starts from a context of its own.
-/
namespace EventQuery

/-- Settings of a compilation. -/
structure Config where
  /-- The zone of calendar operators that name none. -/
  zone : String
  /-- How deep trees may nest. -/
  maxDepth : Nat
  fold : Bool
  deriving DecidableEq, Repr

namespace Config

instance : Inhabited Config := ⟨⟨"UTC", 512, true⟩⟩

/-- A word of 32 bits without sign. -/
def depthOfJson (json : Json) : Json.Decoded Nat := do
  let depth ← json.asInteger
  if 0 ≤ depth ∧ depth < 0x100000000 then return depth.toNat
  throw (.unexpected "integer")

/-- Settings with defaults for the members that are absent; others are refused. -/
def ofJson (json : Json) : Json.Decoded Config := do
  let record ← json.asClosedRecord ["default_time_zone", "max_depth", "fold_constants"]
  let usual : Config := default
  return {
    zone := ← record.withDefault "default_time_zone" usual.zone Json.asText
    maxDepth := ← record.withDefault "max_depth" usual.maxDepth depthOfJson
    fold := ← record.withDefault "fold_constants" usual.fold Json.asBoolean
  }

def settings [ZoneTable] (config : Config) : Except Diagnostic Settings := do
  return ⟨← timeZone config.zone .none, config.fold⟩

end Config

inductive Stage where
  | nesting | bind | validate | optimize
  deriving DecidableEq, Repr

namespace Stage

/-- How messages of a stage start. -/
def lead : Stage → String
  | nesting => "recursion limit exceeded: "
  | bind => "bind failed: "
  | validate => "validation failed: "
  | optimize => "optimization failed: "

end Stage

/-- A compilation failed in a stage. -/
structure CompileError where
  stage : Stage
  diagnostic : Diagnostic
  deriving DecidableEq, Repr

namespace CompileError

def message (error : CompileError) : String := error.stage.lead ++ error.diagnostic.display

end CompileError

/-- A schema with the settings and functions of compilations over it. -/
structure Session where
  schema : Schema
  config : Config
  registry : Registry

namespace Session

/-- A session with the usual settings and all built-in functions. -/
def ofSchema (schema : Schema) : Session := ⟨schema, default, .builtin⟩

/-- The result of a stage. -/
def stage (stage : Stage) (result : Except Diagnostic α) : Except CompileError α :=
  result.mapError fun diagnostic => ⟨stage, diagnostic⟩

def settings [ZoneTable] (session : Session) : Except CompileError Settings :=
  stage .bind session.config.settings

def context (session : Session) (settings : Settings) : Context :=
  .start session.schema settings session.registry

/-! ### Programs -/

/-- The bound program, if it is not nested too deep. -/
def bind [ZoneTable] (session : Session) (program : Program) : Except CompileError Program := do
  stage .nesting (Visit.checkDepth session.config.maxDepth (Visit.ofProgram program))
  let settings ← session.settings
  stage .bind (program.bind (session.context settings))

def validate [ZoneTable] (program : Program) : Except CompileError Program :=
  stage .validate program.validate

def optimize (session : Session) (program : Program) : Except CompileError Program :=
  stage .optimize (program.optimize session.config.fold)

/-- The compiled program. -/
def compile [ZoneTable] (session : Session) (program : Program) : Except CompileError Program := do
  session.optimize (← validate (← session.bind program))

/-! ### Expressions -/

/-- An expression that is compiled by itself, on the root relation. -/
def compileExpr [ZoneTable] (session : Session) (expr : Expr) : Except CompileError Expr := do
  stage .nesting (Visit.checkDepth session.config.maxDepth (Visit.ofExpr expr))
  let settings ← session.settings
  let bound ← stage .bind (Stopped.forget (expr.bind (session.context settings)))
  let (validated, _) ← stage .validate (Stopped.forget bound.validate)
  stage .optimize (validated.optimize session.config.fold)

end Session

end EventQuery
