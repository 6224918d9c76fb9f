import EventQuery.Calendar.Zone
import EventQuery.Schema.Path

/-!
The built-in functions, the numbers of arguments they take, and what binding learns
about one call. A registry is the list of functions that calls may name.
-/
namespace EventQuery

/-! ### Arities -/

inductive Arity where
  | exactly (count : Nat)
  | between (least most : Nat)
  | atLeast (least : Nat)
  deriving DecidableEq, Repr

namespace Arity

def accepts : Arity → Nat → Bool
  | exactly count, n => n == count
  | between least most, n => least ≤ n && n ≤ most
  | atLeast least, n => least ≤ n

def argumentsText (n : Nat) : String := if n = 1 then s!"{n} argument" else s!"{n} arguments"

def text : Arity → String
  | exactly count => argumentsText count
  | between least most => s!"{least} to {most} arguments"
  | atLeast least => s!"at least {argumentsText least}"

end Arity

/-! ### Functions -/

/-- The kinds of statements that functions can ask about. -/
inductive Reference where
  | funnelCompleted | funnelStepReached | segmentOf | inView
  deriving DecidableEq, Repr

namespace Reference

def all : List Reference := [funnelCompleted, funnelStepReached, segmentOf, inView]

def name : Reference → String
  | funnelCompleted => "funnel_completed"
  | funnelStepReached => "funnel_step_reached"
  | segmentOf => "segment_of"
  | inView => "in_view"

/-- What the argument names. -/
def referent : Reference → String
  | funnelCompleted => "funnel"
  | funnelStepReached => "funnel"
  | segmentOf => "segment"
  | inView => "view"

/-- The type of the answer. -/
def type : Reference → DataType
  | funnelCompleted => .boolean
  | funnelStepReached => .long
  | segmentOf => .string
  | inView => .boolean

end Reference

inductive Function where
  | parseDatetime | formatDatetime | epochMillis | enum | split | frequency | size
  | about (reference : Reference)
  deriving DecidableEq, Repr

namespace Function

def all : List Function :=
  [parseDatetime, formatDatetime, epochMillis, enum, split, frequency, size]
    ++ Reference.all.map about

def name : Function → String
  | parseDatetime => "parse_datetime"
  | formatDatetime => "format_datetime"
  | epochMillis => "epoch_millis"
  | enum => "enum"
  | split => "split"
  | frequency => "frequency"
  | size => "size"
  | about reference => reference.name

def arity : Function → Arity
  | formatDatetime => .between 2 3
  | enum => .atLeast 2
  | split => .atLeast 2
  | _ => .exactly 1

end Function

/-! ### Registries -/

/-- Functions in the order of their first registration, each name once. -/
structure Registry where
  functions : List Function
  deriving Repr

namespace Registry

def empty : Registry := ⟨[]⟩

def register (registry : Registry) (function : Function) : Registry :=
  if registry.functions.contains function then registry
  else ⟨registry.functions ++ [function]⟩

def ofList (functions : List Function) : Registry := functions.foldl register empty

/-- All built-in functions. -/
def builtin : Registry := ofList Function.all

def lookup? (registry : Registry) (name : String) : Option Function :=
  registry.functions.find? fun function => function.name == name

end Registry

/-! ### Bound calls -/

/-- What binding learns about one call. -/
inductive CallState where
  | plain
  /-- The zone that instants are shown in. -/
  | zone (zone : TimeZone)
  /-- The path that the call describes. -/
  | target (path : Path)
  /-- The statement that the call asks about; the answer is known per row of `root`. -/
  | referent (name : String) (root : Path)
  deriving DecidableEq, Repr

/-- The function that a call names, with the state of the call. -/
structure Binding where
  function : Function
  state : CallState
  deriving DecidableEq, Repr

end EventQuery
