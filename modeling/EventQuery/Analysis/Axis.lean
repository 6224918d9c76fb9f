import EventQuery.Analysis.Typing

/-!
Evaluation points. An expression is evaluated once per row of some relation, the
lowest one that any of its paths lives in. The relations of an expression have to lie
on one chain from the root down.
-/
namespace EventQuery

namespace Axis

open Typing (unresolved)

/-- The relation a part is evaluated on; constants have none. -/
abbrev Point := Except Diagnostic (Option Path)

def scopeError (span : Span) (detail : String) : Diagnostic := .of .scopeAxisError span detail

def offAxis (span : Span) (a b : Path) : Diagnostic :=
  scopeError span s!"`{a.dotted}` and `{b.dotted}` are not on one path"

/-- The lowest of the points of several parts, after `lowest` was found already. -/
def combineFrom (span : Span) (lowest : Option Path) : List Point → Point
  | [] => .ok lowest
  | point :: rest => do
    match lowest, ← point with
    | lowest, none => combineFrom span lowest rest
    | none, some point => combineFrom span (some point) rest
    | some current, some point =>
      match current.lowest? point with
      | some lowest => combineFrom span (some lowest) rest
      | none => throw (offAxis span current point)

def combine (span : Span) (points : List Point) : Point := combineFrom span none points

/-- The point of a call. -/
def callPoint (span : Span) (name : String) (binding : Binding) (arguments : List Point) :
    Point :=
  match binding.function, binding.state with
  | .frequency, .target path => .ok (some path.home)
  | .size, .target path =>
    match path.parent? with
    | some parent => .ok (some parent)
    | none =>
      .error (scopeError span
        s!"the size of root relation `{path.dotted}` has no evaluation point")
  | .about _, .referent _ root => .ok (some root)
  | .frequency, _ => .error (unresolved span name)
  | .size, _ => .error (unresolved span name)
  | .about _, _ => .error (unresolved span name)
  | _, _ => combine span arguments

def checkBelow (scope point : Path) (span : Span) (what : String) : Except Diagnostic Unit :=
  if scope.isAncestorOf point then .ok ()
  else
    .error (scopeError span
      s!"{what} at `{point.dotted}` is not below scope `{scope.dotted}`")

/-- What is aggregated lies below the scope. -/
def checkTarget (scope : Path) (span : Span) (target : Option Path) : Except Diagnostic Unit :=
  match target with
  | some point => checkBelow scope point span "aggregated value"
  | none => .ok ()

/-- The condition of an aggregation lies below the scope, and on one chain with what
is aggregated. -/
def checkCondition (scope : Path) (target : Option Path) (span : Span)
    (condition : Option Path) : Except Diagnostic Unit := do
  if let some point := condition then
    checkBelow scope point span "WHERE condition"
    if let some target := target then
      if target.areOffPath point then throw (offAxis span target point)

end Axis

open Axis Typing

mutual

def BoolExpr.point : BoolExpr → Point
  | .constant .. => .ok none
  | .binary span _ left right => combine span [left.point, right.point]
  | .not span operand => combine span [operand.point]
  | .comparison span _ left right => combine span [left.point, right.point]
  | .bounds span _ value lower upper => combine span [value.point, lower.point, upper.point]
  | .nullTest span _ operand => combine span [operand.point]
  | .inList span value candidates => combine span (value.point :: ValueExpr.points candidates)
  | .inVector span value vector => combine span [value.point, vector.point]
  | .wrapper span value => combine span [value.point]
  | .boundary span _ relation none => .error (unresolved span relation)
  | .boundary _ _ _ (some path) => .ok (some path)
  | .stepReference .. => .ok none

/-- The relation that a value is evaluated on. -/
def ValueExpr.point : ValueExpr → Point
  | .constant .. => .ok none
  | .path span name none => .error (unresolved span name)
  | .path _ _ (some path) => .ok (some path.home)
  | .parameter .. => .ok none
  | .binary span _ left right => combine span [left.point, right.point]
  | .unary span _ operand => combine span [operand.point]
  | .cast span _ operand => combine span [operand.point]
  | .conversion span _ operand => combine span [operand.point]
  | .quantum span _ operand _ _ => combine span [operand.point]
  | .call span name _ none => .error (unresolved span name)
  | .call span name arguments (some binding) =>
    callPoint span name binding (ValueExpr.points arguments)
  | .aggregation span _ count target condition scope quanta scopePath => do
    let some scope := scopePath | throw (unresolved span (scope.getD ""))
    let targetPoint ← target.point
    checkTarget scope target.span targetPoint
    match condition with
    | some condition => checkCondition scope targetPoint condition.span (← condition.point)
    | none => pure ()
    match count with
    | some count => let _ ← count.point
    | none => pure ()
    match quanta with
    | some quanta => let _ ← quanta.point
    | none => pure ()
    return some scope
  | .now _ => .ok none

def ValueExpr.points : List ValueExpr → List Point
  | [] => []
  | node :: rest => node.point :: ValueExpr.points rest

end

/-- The relation that an expression is evaluated on. -/
def Expr.point : Expr → Point
  | .bool node => node.point
  | .value node => node.point

end EventQuery
