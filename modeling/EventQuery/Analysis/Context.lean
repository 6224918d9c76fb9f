import EventQuery.Analysis.Symbols
import EventQuery.Diagnostic.Basic
import EventQuery.Schema.Basic

/-!
What a pass knows about its surroundings: the schema, the settings, the names in
scope, and the statements around the node it looks at.
-/
namespace EventQuery

/-- Settings of a compilation, with the time zone looked up. -/
structure Settings where
  zone : TimeZone
  /-- Whether optimizing replaces what is known at compile time by constants. -/
  fold : Bool
  deriving DecidableEq, Repr

/-- The zone with a name. -/
def timeZone [ZoneTable] (name : String) (span : Span) : Except Diagnostic TimeZone :=
  match ZoneTable.find? name with
  | some zone => .ok zone
  | none => .error (.of .typeError span s!"`{name}` is not a known time zone")

/-- Something that encloses a node. -/
inductive Frame where
  | statement (name : Option String)
  | funnel (steps : List Int64) (sources : List Path)
  | step (id : Int64)
  deriving DecidableEq, Repr

structure Context where
  schema : Schema
  settings : Settings
  symbols : Symbols
  /-- The frames around a node, innermost first. -/
  frames : List Frame

namespace Context

/-- The context of a compilation: the functions of a registry are in scope. -/
def start (schema : Schema) (settings : Settings) (registry : Registry) : Context :=
  let define (symbols : Symbols) (function : Function) : Symbols :=
    (symbols.define? function.name (.function function)).getD symbols
  ⟨schema, settings, registry.functions.foldl define (.empty schema.root), []⟩

def enter (context : Context) (frame : Frame) : Context :=
  { context with frames := frame :: context.frames }

/-- The context in a new scope. -/
def inScope (context : Context) (root : Option Path) : Context :=
  { context with symbols := context.symbols.push root }

/-- The name of the innermost statement that has one. -/
def statement? (context : Context) : Option String :=
  context.frames.findSome? fun
    | .statement name => name
    | _ => none

/-- The step ids and the sources of the innermost funnel. -/
def funnel? (context : Context) : Option (List Int64 × List Path) :=
  context.frames.findSome? fun
    | .funnel steps sources => some (steps, sources)
    | _ => none

/-- The innermost step. -/
def step? (context : Context) : Option Int64 :=
  context.frames.findSome? fun
    | .step id => some id
    | _ => none

end Context

end EventQuery
