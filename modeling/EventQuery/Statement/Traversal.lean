import EventQuery.Diagnostic.Basic
import EventQuery.Expression.Traversal
import EventQuery.Pattern.Text
import EventQuery.Statement.Basic

/-!
All nodes of a program in the order of reading: statements, steps, and the nodes of
expressions and patterns with the level they lie at. Expressions and patterns by
themselves lie at level 1. The nesting of a program is limited by these levels.
-/
namespace EventQuery

/-- A node of a program. -/
inductive Visit where
  | statement (statement : Statement)
  | step (step : Step)
  | expr (level : Nat) (expr : Expr)
  | pattern (level : Nat) (pattern : Pattern)

namespace Visit

def ofExpr (expr : Expr) : List Visit :=
  (expr.nodesFrom 1).map fun (level, node) => .expr level node

def ofBool (node : BoolExpr) : List Visit := ofExpr (.bool node)

def ofValue (node : ValueExpr) : List Visit := ofExpr (.value node)

def ofPattern (pattern : Pattern) : List Visit :=
  (pattern.nodesFrom 1).map fun (level, node) => .pattern level node

def ofStep (step : Step) : List Visit :=
  let parts := match step.trigger with
    | some trigger => trigger.parts
    | none => []
  .step step :: ofBool step.condition ++ (parts.filterMap id).flatMap ofValue

def inQuery (query : Query) : List Visit :=
  query.selections.flatMap (fun selection => ofExpr selection.expr)
    ++ query.condition.toList.flatMap ofBool ++ query.groupBy.flatMap ofValue
    ++ query.limit.toList.flatMap ofValue

def inFunnel (funnel : Funnel) : List Visit :=
  funnel.steps.flatMap ofStep ++ ofPattern funnel.pattern
    ++ funnel.within.toList.flatMap ofValue ++ funnel.limit.toList.flatMap ofValue

def inSegment (segment : Segment) : List Visit :=
  segment.definitions.flatMap fun definition => ofBool definition.condition

def ofStatement (statement : Statement) : List Visit :=
  .statement statement ::
    match statement with
    | .query query => inQuery query
    | .view view => ofBool view.condition
    | .funnel funnel => inFunnel funnel
    | .segment segment => inSegment segment

def ofProgram (program : Program) : List Visit := program.statements.flatMap ofStatement

/-- A node in a few words. -/
def text : Visit → String
  | statement it => it.keyword ++ " " ++ it.name?.getD "-"
  | step it => s!"step {it.id}"
  | expr _ (.bool node) => "bool " ++ node.kind
  | expr _ (.value node) => "value " ++ node.kind
  | pattern _ node => "match " ++ node.text

/-- The level and the span of a node of an expression or a pattern. -/
def place? : Visit → Option (Nat × Span)
  | statement _ => none
  | step _ => none
  | expr level node => some (level, node.span)
  | pattern level node => some (level, node.span)

/-- The first of some nodes that lies too deep is refused. -/
def checkDepth (limit : Nat) (visits : List Visit) : Except Diagnostic Unit :=
  match (visits.filterMap place?).find? fun (level, _) => limit < level with
  | some (_, span) => .error (.of .limitExceeded span s!"nesting deeper than {limit}")
  | none => .ok ()

end Visit

end EventQuery
