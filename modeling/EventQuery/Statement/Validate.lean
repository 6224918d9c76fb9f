import EventQuery.Analysis.Validate
import EventQuery.Pattern.Settle
import EventQuery.Statement.Basic
import EventQuery.Text.Blank

/-!
Validation of bound statements: their expressions, the durations and limits that have
to be known at compile time, the patterns of funnels, and whether conditions lie on
the paths of the sources.
-/
namespace EventQuery

namespace Validate

open Stopped (forget)

/-- The default of a parameter has to fit its type. -/
def checkParameter (parameter : Parameter) : Except Diagnostic Unit :=
  match parameter.default with
  | none => .ok ()
  | some value =>
    match value.cast parameter.type with
    | .ok _ => .ok ()
    | .error error =>
      let reason := error.message
      .error (.of .typeError parameter.span
        s!"default of `${parameter.name}` does not fit {parameter.type.name}: {reason}")

/-- A limit, replaced by its constant. -/
def limit (node : Option ValueExpr) : Except Diagnostic (Option ValueExpr) :=
  node.mapM fun node => do return (← forget (foldCount node "LIMIT" 0)).1

/-- A duration that may be left out, replaced by its constant. -/
def duration (node : Option ValueExpr) (what : String) : Except Diagnostic (Option ValueExpr) :=
  node.mapM fun node => forget (foldDuration node what)

/-- A point shares a chain of relations with some source, if there are sources. -/
def checkSources (point : Option Path) (sources : List Path) (span : Span) :
    Except Diagnostic Unit :=
  match point with
  | none => .ok ()
  | some point =>
    if sources.isEmpty || sources.any fun source => !source.areOffPath point then .ok ()
    else
      let listed := ", ".intercalate (sources.map fun source => s!"`{source.dotted}`")
      .error (Axis.scopeError span s!"`{point.dotted}` is on no path of the sources {listed}")

def query [ZoneTable] (query : Query) : Except Diagnostic Query := do
  let selections ← query.selections.mapM fun selection => do
    return { selection with expr := (← forget selection.expr.validate).1 }
  let condition ← query.condition.mapM fun condition => do
    return (← forget condition.checked).1
  let groupBy ← query.groupBy.mapM fun key => do return (← forget key.checked).1
  return { query with selections, condition, groupBy, limit := ← limit query.limit }

def view [ZoneTable] (view : View) : Except Diagnostic View := do
  return { view with condition := (← forget view.condition.checked).1 }

/-- The timing of a step is an instant or a whole number, on one chain of relations with
the condition of the step. -/
def checkTiming (timing : ValueExpr) (timed condition : Option Path) : Except Diagnostic Unit := do
  let type ← timing.type
  if !(type = .datetime || type.isIntegral) then
    throw (.of .typeError timing.span
      s!"step timing must be DATETIME or integral, found {type.name}")
  match timed, condition with
  | some timed, some condition =>
    if timed.areOffPath condition then
      let place := s!"step timing at `{timed.dotted}`"
      throw (Axis.scopeError timing.span
        s!"{place} is on no path of the step condition at `{condition.dotted}`")
  | _, _ => return

def trigger [ZoneTable] (condition : Option Path) (trigger : Trigger) :
    Except Diagnostic Trigger := do
  let timing ← trigger.timing.mapM fun timing => do
    let (timing, point) ← forget timing.checked
    checkTiming timing point condition
    return timing
  let within ← duration trigger.within "WITHIN"
  let after ← duration trigger.after "AFTER"
  return { trigger with timing, within, after }

def step [ZoneTable] (sources : List Path) (step : Step) : Except Diagnostic Step := do
  let (condition, point) ← forget step.condition.checked
  checkSources point sources condition.span
  return { step with condition, trigger := ← step.trigger.mapM (trigger point) }

def funnel [ZoneTable] (funnel : Funnel) : Except Diagnostic Funnel := do
  let steps ← funnel.steps.mapM (step funnel.sourcePaths)
  let within ← duration funnel.within "WITHIN"
  let limit ← limit funnel.limit
  let pattern ← forget (funnel.pattern.validate funnel.stepIds)
  return { funnel with steps, within, limit, pattern }

/-- Definitions whose names are not among `seen`. -/
def definitions [ZoneTable] (sources : List Path) (seen : List String) :
    List SegmentDefinition → Except Diagnostic (List SegmentDefinition)
  | [] => .ok []
  | definition :: rest => do
    if (Text.Blank.trimmed definition.name).isEmpty then
      throw (.of .patternStructureError definition.span "segment definitions need a name")
    if seen.contains definition.name then
      throw (.of .duplicateDefinition definition.span definition.name)
    let (condition, point) ← forget definition.condition.checked
    checkSources point sources condition.span
    let rest ← definitions sources (definition.name :: seen) rest
    return { definition with condition } :: rest

def segment [ZoneTable] (segment : Segment) : Except Diagnostic Segment := do
  return { segment with
    definitions := ← definitions segment.sourcePaths [] segment.definitions }

def statement [ZoneTable] (statement : Statement) : Except Diagnostic Statement := do
  statement.parameters.forM checkParameter
  match statement with
  | .query known => return .query (← query known)
  | .view known => return .view (← view known)
  | .funnel known => return .funnel (← funnel known)
  | .segment known => return .segment (← segment known)

end Validate

namespace Program

/-- The validated program. -/
def validate [ZoneTable] (program : Program) : Except Diagnostic Program := do
  return { program with statements := ← program.statements.mapM Validate.statement }

end Program

end EventQuery
