import EventQuery.Analysis.Axis
import EventQuery.Analysis.Bind
import EventQuery.Expression.Traversal
import EventQuery.Statement.Basic

/-!
Binding of statements. The names of all statements are known before any of them is
bound, so they may refer to each other in any order. Each statement has a scope of its
own with its parameters. At last no statement may refer to itself, not even through
others.
-/
namespace EventQuery

namespace Bind

open Stopped (forget)

/-- What the name of a statement stands for. -/
def definition : Statement → Definition
  | .query _ => .query
  | .view _ => .view
  | .funnel funnel => .funnel funnel.stepIds
  | .segment segment => .segment (segment.definitions.map SegmentDefinition.name)

/-- The names with the parameters of a statement. -/
def parameters (symbols : Symbols) : List Parameter → Except Diagnostic Symbols
  | [] => .ok symbols
  | parameter :: rest =>
    match symbols.define? parameter.name (.parameter parameter.type parameter.default) with
    | some symbols => parameters symbols rest
    | none => .error (.of .duplicateDefinition parameter.span ("$" ++ parameter.name))

/-- The bound form of a value that may be left out. -/
def option (context : Context) (node : Option ValueExpr) :
    Except Diagnostic (Option ValueExpr) :=
  node.mapM fun node => forget (node.bind context)

/-- A duration of zero, `LONG` as all durations. -/
def zero : ValueExpr := .ofConstant (.long 0)

def query (context : Context) (query : Query) : Except Diagnostic Query := do
  let selections ← query.selections.mapM fun selection => do
    return { selection with expr := ← forget (selection.expr.bind context) }
  let condition ← query.condition.mapM fun condition => forget (condition.bind context)
  let groupBy ← query.groupBy.mapM fun key => forget (key.bind context)
  let limit ← option context query.limit
  return { query with selections, condition, groupBy, limit }

def view (context : Context) (view : View) : Except Diagnostic View := do
  return { view with condition := ← forget (view.condition.bind context) }

def sources (context : Context) (names : List String) (span : Span) :
    Except Diagnostic (List Path) :=
  names.mapM fun name => relation context name span

/-- The relations from that of a path up to the root. -/
def chain (path : Path) : List Path :=
  (List.range path.owner.length).map fun i => .relation (path.owner.take (path.owner.length - i))

/-- The timing of a step: the ordinal field of the nearest relation at or above the one
the condition is evaluated on. Constant conditions count for the first source. -/
def timing (context : Context) (condition : BoolExpr) (sources : List Path) (span : Span) :
    Except Diagnostic ValueExpr := do
  let start := match ← condition.point with
    | some point => point
    | none => sources.headD context.schema.root
  match (chain start).findSome? context.schema.ordinalOf? with
  | some ordinal => return .path .none ordinal.dotted (some ordinal)
  | none =>
    throw (.of .scopeAxisError span
      s!"no relation at or above `{start.dotted}` has an ordinal field to time the step")

def trigger (context : Context) (trigger : Trigger) (condition : BoolExpr) (sources : List Path)
    (span : Span) : Except Diagnostic Trigger := do
  let given ← option context trigger.timing
  let within ← option context trigger.within
  let after ← option context trigger.after
  let timing ← match given with
    | some given => pure given
    | none => timing context condition sources span
  return { trigger with
    timing := some timing, within := some (within.getD zero), after := some (after.getD zero) }

def step (context : Context) (sources : List Path) (step : Step) : Except Diagnostic Step := do
  let context := context.enter (.step step.id)
  let condition ← forget (step.condition.bind context)
  let span := condition.span.cover step.span
  let trigger ← step.trigger.mapM fun known => trigger context known condition sources span
  return { step with condition, trigger }

def funnel (context : Context) (funnel : Funnel) : Except Diagnostic Funnel := do
  let sourcePaths ← sources context funnel.sources funnel.span
  let within ← forget ((funnel.within.getD zero).bind context)
  let limit ← option context funnel.limit
  let inner := context.enter (.funnel funnel.stepIds sourcePaths)
  let steps ← funnel.steps.mapM (step inner sourcePaths)
  return { funnel with sourcePaths, within := some within, limit, steps }

def segment (context : Context) (segment : Segment) : Except Diagnostic Segment := do
  let sourcePaths ← sources context segment.sources segment.span
  let definitions ← segment.definitions.mapM fun definition => do
    return { definition with condition := ← forget (definition.condition.bind context) }
  return { segment with sourcePaths, definitions }

def statement (context : Context) (statement : Statement) : Except Diagnostic Statement := do
  let context := (context.enter (.statement statement.name?)).inScope none
  let context := { context with symbols := ← parameters context.symbols statement.parameters }
  match statement with
  | .query known => return .query (← query context known)
  | .view known => return .view (← view context known)
  | .funnel known => return .funnel (← funnel context known)
  | .segment known => return .segment (← segment context known)

/-! ### References between statements -/

/-- The statement that a bound call asks about, and where it is named. -/
def referent? : Expr → Option (String × Span)
  | .value (.call _ _ arguments (some ⟨_, .referent name _⟩)) =>
    some (name, (arguments.head?.map ValueExpr.span).getD .none)
  | _ => none

def referentsOf (expr : Expr) : List (String × Span) :=
  (expr.nodesFrom 0).filterMap fun (_, node) => referent? node

/-- The expressions of a statement in the order in which they are bound. -/
def expressions : Statement → List Expr
  | .query query =>
    query.selections.map Selection.expr ++ query.condition.toList.map .bool
      ++ query.groupBy.map .value ++ query.limit.toList.map .value
  | .view view => [.bool view.condition]
  | .funnel funnel =>
    let ofStep (step : Step) : List Expr :=
      .bool step.condition ::
        match step.trigger with
        | some trigger => (trigger.parts.filterMap id).map .value
        | none => []
    funnel.within.toList.map .value ++ funnel.limit.toList.map .value
      ++ funnel.steps.flatMap ofStep
  | .segment segment =>
    segment.definitions.map fun definition => .bool definition.condition

/-- The names with the references that a bound statement makes. -/
def recordReferences (symbols : Symbols) (statement : Statement) : Symbols :=
  match statement.name? with
  | some name =>
    ((expressions statement).flatMap referentsOf).foldl (fun symbols (target, span) =>
      symbols.refer name target span) symbols
  | none => symbols

def checkCycle (symbols : Symbols) : Except Diagnostic Unit :=
  match symbols.cycle? with
  | none => .ok ()
  | some cycle =>
    let trail := " -> ".intercalate (cycle.names.map fun name => s!"`{name}`")
    let name := cycle.names.headD ""
    .error (.of .typeError cycle.span s!"`{name}` refers to itself through {trail}")

/-- The names with those of the statements. -/
def declare (symbols : Symbols) : List Statement → Except Diagnostic Symbols
  | [] => .ok symbols
  | statement :: rest =>
    match statement.name? with
    | none => declare symbols rest
    | some name =>
      match symbols.define? name (definition statement) with
      | some symbols => declare symbols rest
      | none => .error (.of .duplicateDefinition statement.span name)

end Bind

namespace Program

/-- The bound program. -/
def bind (context : Context) (program : Program) : Except Diagnostic Program := do
  let context := { context with symbols := ← Bind.declare context.symbols program.statements }
  let statements ← program.statements.mapM (Bind.statement context)
  Bind.checkCycle (statements.foldl Bind.recordReferences context.symbols)
  return { program with statements }

end Program

end EventQuery
