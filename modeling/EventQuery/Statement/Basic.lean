import EventQuery.Expression.Basic
import EventQuery.Pattern.Basic

/-!
Statements: queries, views, funnels and segments, and programs of them. Statements
share one space of names; each has parameters of its own.
-/
namespace EventQuery

/-- A parameter `$name` with its type. -/
structure Parameter where
  span : Span
  name : String
  type : DataType
  default : Option Constant
  deriving Repr

/-- A column of a query. -/
structure Selection where
  span : Span
  expr : Expr
  name : Option String

structure Query where
  span : Span
  name : Option String
  parameters : List Parameter
  selections : List Selection
  condition : Option BoolExpr
  groupBy : List ValueExpr
  limit : Option ValueExpr
  tags : List String

/-- A condition with a name. -/
structure View where
  span : Span
  name : String
  parameters : List Parameter
  condition : BoolExpr

inductive FunnelKind where
  | conversion | transaction
  deriving DecidableEq, Repr

namespace FunnelKind

def all : List FunnelKind := [conversion, transaction]

def keyword : FunnelKind → String
  | conversion => "CONVERSION"
  | transaction => "TRANSACTION"

end FunnelKind

/-- When a step counts. Binding fills in what is left out: the timing from the nearest
ordinal field, the durations with zero. -/
structure Trigger where
  span : Span
  timing : Option ValueExpr
  within : Option ValueExpr
  after : Option ValueExpr

structure Step where
  span : Span
  id : Int64
  condition : BoolExpr
  trigger : Option Trigger

structure Funnel where
  span : Span
  name : String
  kind : FunnelKind
  parameters : List Parameter
  sources : List String
  /-- The steps in order, each id once. -/
  steps : List Step
  pattern : Pattern
  /-- The time in milliseconds in which the whole happens; zero is no limit. -/
  within : Option ValueExpr
  limit : Option ValueExpr
  tags : List String
  /-- The paths of the sources, when they are bound. -/
  sourcePaths : List Path

/-- A named class of a segment. -/
structure SegmentDefinition where
  span : Span
  name : String
  condition : BoolExpr

/-- Classes in order, the first one that matches wins. -/
structure Segment where
  span : Span
  name : String
  parameters : List Parameter
  sources : List String
  definitions : List SegmentDefinition
  /-- The paths of the sources, when they are bound. -/
  sourcePaths : List Path

inductive Statement where
  | query (query : Query)
  | view (view : View)
  | funnel (funnel : Funnel)
  | segment (segment : Segment)

structure Program where
  span : Span
  statements : List Statement

namespace Statement

def name? : Statement → Option String
  | query it => it.name
  | view it => some it.name
  | funnel it => some it.name
  | segment it => some it.name

def keyword : Statement → String
  | query _ => "QUERY"
  | view _ => "VIEW"
  | funnel _ => "FUNNEL"
  | segment _ => "SEGMENT"

def span : Statement → Span
  | query it => it.span
  | view it => it.span
  | funnel it => it.span
  | segment it => it.span

def parameters : Statement → List Parameter
  | query it => it.parameters
  | view it => it.parameters
  | funnel it => it.parameters
  | segment it => it.parameters

end Statement

/-! ### Steps of a funnel -/

namespace Funnel

def stepIds (funnel : Funnel) : List Int64 := funnel.steps.map Step.id

/-- The steps with one more; a step with the same id is replaced where it is. -/
def insertStep (steps : List Step) (step : Step) : List Step :=
  if steps.any fun known => known.id == step.id then
    steps.map fun known => if known.id == step.id then step else known
  else steps ++ [step]

def withStep (funnel : Funnel) (step : Step) : Funnel :=
  { funnel with steps := insertStep funnel.steps step }

/-- The id below all negative ids; ids wrap around at the least one. -/
def nextId (funnel : Funnel) : Int64 :=
  match (funnel.stepIds.filter (· < 0)).min? with
  | some lowest => lowest - 1
  | none => -1

/-- The funnel with a step without trigger, under the next id. -/
def addUntriggered (funnel : Funnel) (condition : BoolExpr) : Funnel :=
  funnel.withStep ⟨.none, funnel.nextId, condition, none⟩

/-- The funnel with a step at an end of the rows of a relation. -/
def addBoundary (funnel : Funnel) (edge : Edge) (relation : String) : Funnel :=
  funnel.addUntriggered (.ofBoundary edge relation)

end Funnel

namespace Trigger

/-- The parts of a trigger in order. -/
def parts (trigger : Trigger) : List (Option ValueExpr) :=
  [trigger.timing, trigger.within, trigger.after]

end Trigger

end EventQuery
