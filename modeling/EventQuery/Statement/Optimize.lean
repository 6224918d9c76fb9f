import EventQuery.Analysis.Optimize
import EventQuery.Analysis.Validate
import EventQuery.Statement.Validate

/-!
Optimization of validated statements. Limits are constants already; durations become
constants again.
-/
namespace EventQuery

namespace Optimize

def query (fold : Bool) (query : Query) : Except Diagnostic Query := do
  let selections ← query.selections.mapM fun selection => do
    return { selection with expr := ← selection.expr.optimize fold }
  let condition ← query.condition.mapM (BoolExpr.optimize fold)
  let groupBy ← query.groupBy.mapM (ValueExpr.optimize fold)
  return { query with selections, condition, groupBy }

def trigger (fold : Bool) (trigger : Trigger) : Except Diagnostic Trigger := do
  let timing ← trigger.timing.mapM (ValueExpr.optimize fold)
  let within ← Validate.duration trigger.within "WITHIN"
  let after ← Validate.duration trigger.after "AFTER"
  return { trigger with timing, within, after }

def step (fold : Bool) (step : Step) : Except Diagnostic Step := do
  let condition ← step.condition.optimize fold
  return { step with condition, trigger := ← step.trigger.mapM (trigger fold) }

def funnel (fold : Bool) (funnel : Funnel) : Except Diagnostic Funnel := do
  let steps ← funnel.steps.mapM (step fold)
  return { funnel with steps, within := ← Validate.duration funnel.within "WITHIN" }

def segment (fold : Bool) (segment : Segment) : Except Diagnostic Segment := do
  let definitions ← segment.definitions.mapM fun definition => do
    return { definition with condition := ← definition.condition.optimize fold }
  return { segment with definitions }

def statement (fold : Bool) (statement : Statement) : Except Diagnostic Statement := do
  match statement with
  | .query known => return .query (← query fold known)
  | .view known => return .view { known with condition := ← known.condition.optimize fold }
  | .funnel known => return .funnel (← funnel fold known)
  | .segment known => return .segment (← segment fold known)

end Optimize

namespace Program

/-- The optimized program. -/
def optimize (fold : Bool) (program : Program) : Except Diagnostic Program := do
  return { program with statements := ← program.statements.mapM (Optimize.statement fold) }

end Program

end EventQuery
