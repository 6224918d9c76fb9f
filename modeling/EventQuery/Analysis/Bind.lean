import EventQuery.Analysis.Context
import EventQuery.Analysis.Stopped
import EventQuery.Expression.Basic
import EventQuery.Text.Distance

/-!
Binding of expressions: names get their meaning from the schema and the scopes, and
what an aggregation leaves out is filled in. A name that has no meaning is reported
with the closest one that has.
-/
namespace EventQuery

namespace Bind

/-- The diagnostic of a name without meaning, with the closest name that has one. -/
def unresolved (span : Span) (shown name : String) (known : List String) : Diagnostic :=
  (Diagnostic.of .unresolvedReference span shown).withHints
    (Text.Distance.suggestion name known).toList

/-- The path that a name of the schema means. -/
def path (context : Context) (name : String) (span : Span) : Except Diagnostic Path :=
  match context.schema.resolve name with
  | .ok path => .ok path
  | .error (.ambiguousPath _ candidates) =>
    .error ((Diagnostic.of .unresolvedReference span name).withHint
      ("ambiguous, qualify it as one of: " ++ ", ".intercalate candidates))
  | .error _ => .error (unresolved span name name context.schema.knownNames)

def relation (context : Context) (name : String) (span : Span) : Except Diagnostic Path := do
  let path ← path context name span
  if path.isRelation then return path
  throw (.of .typeError span s!"`{name}` is a field, a relation is required")

def parameterType (context : Context) (name : String) (span : Span) :
    Except Diagnostic DataType :=
  match context.symbols.lookup? name with
  | some (.parameter type _) => .ok type
  | _ =>
    .error (unresolved span ("$" ++ name) name
      (context.symbols.namesWhere Definition.isParameter))

/-- A step reference stands inside a funnel with that step, and not inside the step. -/
def checkStep (context : Context) (span : Span) (step : Int64) : Except Diagnostic Unit := do
  let structureError (detail : String) : Diagnostic := .of .patternStructureError span detail
  let some (steps, _) := context.funnel?
    | throw (structureError s!"STEP({step}) is only valid inside a funnel")
  if !steps.contains step then
    throw (structureError s!"step {step} is not defined in this funnel")
  if context.step? = some step then
    throw (structureError s!"step {step} refers to itself")

/-! ### Calls -/

/-- The function that a call names, if it takes as many arguments. -/
def function (context : Context) (span : Span) (name : String) (count : Nat) :
    Except Diagnostic Function := do
  let function ← match context.symbols.lookup? name with
    | some (.function function) => pure function
    | some other =>
      throw ((Diagnostic.of .unresolvedReference span name).withHint
        s!"`{name}` is a {other.describe}, not a function")
    | none =>
      throw (unresolved span name name (context.symbols.namesWhere Definition.isFunction))
  if function.arity.accepts count then return function
  throw (.of .arityError span s!"`{name}` takes {function.arity.text}, got {count}")

/-- Whether a definition is what a reference asks about. -/
def matchesReference : Reference → Definition → Bool
  | .funnelCompleted, .funnel _ => true
  | .funnelStepReached, .funnel _ => true
  | .segmentOf, .segment _ => true
  | .inView, .view => true
  | _, _ => false

/-- The statement that an argument names. -/
def referent (context : Context) (call : String) (reference : Reference) (argument : ValueExpr) :
    Except Diagnostic CallState := do
  let span := argument.span
  let typeError (detail : String) : Diagnostic := .of .typeError span detail
  let some name := argument.constant?.bind Constant.string?
    | throw (typeError s!"`{call}` expects the {reference.referent} name as a string literal")
  if context.statement? = some name then throw (typeError s!"`{name}` cannot refer to itself")
  match context.symbols.lookup? name with
  | some definition =>
    if matchesReference reference definition then return .referent name context.schema.root
    throw (typeError s!"`{name}` is a {definition.describe}, not a {reference.referent}")
  | none =>
    throw (unresolved span name name (context.symbols.namesWhere (matchesReference reference)))

/-- The path that the bound argument of a call names. -/
def target (call : String) (argument : ValueExpr) : Except Diagnostic Path :=
  match argument.resolved? with
  | some path => .ok path
  | none => .error (.of .typeError argument.span s!"`{call}` expects a schema path")

/-- What a call of a function is about, when its arguments are bound. -/
def callState (context : Context) (name : String) (function : Function)
    (arguments : List ValueExpr) : Except Diagnostic CallState :=
  match function, arguments with
  | .formatDatetime, _ => .ok (.zone context.settings.zone)
  | .frequency, argument :: _ => do return .target (← target name argument)
  | .size, argument :: _ => do
    let path ← target name argument
    if path.isRelation || path.isVector then return .target path
    throw (.of .typeError argument.span
      s!"`size` needs a relation or vector field, `{path.dotted}` is a scalar")
  | _, _ => .ok .plain

/-- What a call of a function that does not bind its arguments is about. -/
def unboundState? (context : Context) (name : String) (function : Function)
    (arguments : List ValueExpr) : Option (Except Diagnostic CallState) :=
  match function, arguments with
  | .about reference, argument :: _ => some (referent context name reference argument)
  | _, _ => none

/-- The quanta of an aggregation that names none. -/
def defaultQuanta : ValueExpr := .ofConstant (.integer 1)

end Bind

open Stopped (check within)

mutual

/-- The bound predicate. -/
def BoolExpr.bind (context : Context) : BoolExpr → Except (Stopped BoolExpr) BoolExpr
  | .constant span value => return .constant span value
  | .binary span op left right => do
    let left ← within (left.bind context) fun left => .binary span op left right
    let right ← within (right.bind context) fun right => .binary span op left right
    return .binary span op left right
  | .not span operand => do
    return .not span (← within (operand.bind context) fun operand => .not span operand)
  | .comparison span op left right => do
    let left ← within (left.bind context) fun left => .comparison span op left right
    let right ← within (right.bind context) fun right => .comparison span op left right
    return .comparison span op left right
  | .bounds span op value lower upper => do
    let value ← within (value.bind context) fun value => .bounds span op value lower upper
    let lower ← within (lower.bind context) fun lower => .bounds span op value lower upper
    let upper ← within (upper.bind context) fun upper => .bounds span op value lower upper
    return .bounds span op value lower upper
  | .nullTest span op operand => do
    return .nullTest span op
      (← within (operand.bind context) fun operand => .nullTest span op operand)
  | .inList span value candidates => do
    let value ← within (value.bind context) fun value => .inList span value candidates
    let candidates ← within (ValueExpr.bindAll context candidates) fun candidates =>
      .inList span value candidates
    return .inList span value candidates
  | .inVector span value vector => do
    let value ← within (value.bind context) fun value => .inVector span value vector
    let vector ← within (vector.bind context) fun vector => .inVector span value vector
    return .inVector span value vector
  | .wrapper span value => do
    return .wrapper span (← within (value.bind context) fun value => .wrapper span value)
  | .boundary span edge relation resolved => do
    let path ← check (.boundary span edge relation resolved) (Bind.relation context relation span)
    return .boundary span edge relation (some path)
  | .stepReference span step => do
    check (.stepReference span step) (Bind.checkStep context span step)
    return .stepReference span step

/-- The bound value. -/
def ValueExpr.bind (context : Context) : ValueExpr → Except (Stopped ValueExpr) ValueExpr
  | .constant span value => return .constant span value
  | .path span name resolved => do
    let path ← check (.path span name resolved) (Bind.path context name span)
    return .path span name (some path)
  | .parameter span name type => do
    let type ← check (.parameter span name type) (Bind.parameterType context name span)
    return .parameter span name (some type)
  | .binary span op left right => do
    let left ← within (left.bind context) fun left => .binary span op left right
    let right ← within (right.bind context) fun right => .binary span op left right
    return .binary span op left right
  | .unary span sign operand => do
    return .unary span sign
      (← within (operand.bind context) fun operand => .unary span sign operand)
  | .cast span target operand => do
    return .cast span target
      (← within (operand.bind context) fun operand => .cast span target operand)
  | .conversion span kind operand => do
    return .conversion span kind
      (← within (operand.bind context) fun operand => .conversion span kind operand)
  | .quantum span taken operand zone timeZone => do
    let operand ← within (operand.bind context) fun operand =>
      .quantum span taken operand zone timeZone
    return .quantum span taken operand zone
      (if zone.isNone then some context.settings.zone else timeZone)
  | .call span name arguments binding => do
    let function ← check (.call span name arguments binding)
      (Bind.function context span name arguments.length)
    match Bind.unboundState? context name function arguments with
    | some state =>
      let state ← check (.call span name arguments binding) state
      return .call span name arguments (some ⟨function, state⟩)
    | none =>
      let arguments ← within (ValueExpr.bindAll context arguments) fun arguments =>
        .call span name arguments binding
      let state ← check (.call span name arguments binding)
        (Bind.callState context name function arguments)
      return .call span name arguments (some ⟨function, state⟩)
  | .aggregation span op count target condition scope quanta scopePath => do
    let scope := scope.getD context.symbols.root.dotted
    let filled := some (quanta.getD Bind.defaultQuanta)
    let path ← check (.aggregation span op count target condition (some scope) filled scopePath)
      (Bind.relation context scope span)
    let inner := context.inScope (some path)
    let node (count : Option ValueExpr) (target : ValueExpr) (condition : Option BoolExpr)
        (quanta : Option ValueExpr) : ValueExpr :=
      .aggregation span op count target condition (some scope) quanta (some path)
    let count ← match count with
      | some count =>
        some <$> within (count.bind context) fun count => node (some count) target condition filled
      | none => pure none
    let target ← within (target.bind context) fun target => node count target condition filled
    let condition ← match condition with
      | some condition =>
        some <$> within (condition.bind inner) fun condition =>
          node count target (some condition) filled
      | none => pure none
    let quanta ← match quanta with
      | some quanta =>
        some <$> within (quanta.bind inner) fun quanta => node count target condition (some quanta)
      | none => pure filled
    return node count target condition quanta
  | .now span => return .now span

def ValueExpr.bindAll (context : Context) :
    List ValueExpr → Except (Stopped (List ValueExpr)) (List ValueExpr)
  | [] => return []
  | node :: rest => do
    let node ← within (node.bind context) fun node => node :: rest
    let rest ← within (ValueExpr.bindAll context rest) fun rest => node :: rest
    return node :: rest

end

namespace Expr

/-- The bound expression. -/
def bind (context : Context) : Expr → Except (Stopped Expr) Expr
  | bool node => do return bool (← within (node.bind context) bool)
  | value node => do return value (← within (node.bind context) value)

end Expr

end EventQuery
