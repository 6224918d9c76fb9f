import EventQuery.Analysis.Context
import EventQuery.Analysis.Reduce

/-!
Optimization from the leaves up: what is known at compile time becomes a constant,
connectives with one constant side give way to the other, and double negations
vanish. Without folding only the calls are checked to be bound.
-/
namespace EventQuery

namespace Optimize

/-- A connective that is decided by one of its sides, or depends on the other only. -/
def shortCircuit (span : Span) (op : Connective) (left right : BoolExpr) : BoolExpr :=
  match op, left.constant?, right.constant? with
  | .and, some false, _ => .constant span (.boolean false)
  | .and, _, some false => .constant span (.boolean false)
  | .or, some true, _ => .constant span (.boolean true)
  | .or, _, some true => .constant span (.boolean true)
  | .and, some true, _ => right
  | .or, some false, _ => right
  | .and, _, some true => left
  | .or, _, some false => left
  | _, _, _ => .binary span op left right

/-- A node whose children are optimized and whose value is not known. -/
def simplified : BoolExpr → BoolExpr
  | .binary span op left right => shortCircuit span op left right
  | .not _ (.not _ operand) => operand
  | node => node

/-- The constant for a predicate whose truth is known, else the simplified predicate. -/
def foldBool (fold : Bool) (node : BoolExpr) : Except Diagnostic BoolExpr :=
  if fold then
    match node with
    | .constant .. => .ok node
    | node =>
      if node.isConstant then do return .constant node.span (.boolean (← node.reduce))
      else .ok (simplified node)
  else .ok node

/-- The constant for a value that is known. -/
def foldValue (fold : Bool) (node : ValueExpr) : Except Diagnostic ValueExpr :=
  if fold then
    match node with
    | .constant .. => .ok node
    | node =>
      if node.isConstant then do return .constant node.span (← node.reduce)
      else .ok node
  else .ok node

/-- Whether the arguments of a call are optimized. -/
def optimizesArguments : Function → Bool
  | .about _ => false
  | _ => true

end Optimize

open Optimize

mutual

def BoolExpr.optimize (fold : Bool) : BoolExpr → Except Diagnostic BoolExpr
  | .constant span value => .ok (.constant span value)
  | .binary span op left right => do
    foldBool fold (.binary span op (← left.optimize fold) (← right.optimize fold))
  | .not span operand => do
    foldBool fold (.not span (← operand.optimize fold))
  | .comparison span op left right => do
    foldBool fold (.comparison span op (← left.optimize fold) (← right.optimize fold))
  | .bounds span op value lower upper => do
    foldBool fold (.bounds span op (← value.optimize fold) (← lower.optimize fold)
      (← upper.optimize fold))
  | .nullTest span op operand => do
    foldBool fold (.nullTest span op (← operand.optimize fold))
  | .inList span value candidates => do
    foldBool fold
      (.inList span (← value.optimize fold) (← ValueExpr.optimizeAll fold candidates))
  | .inVector span value vector => do
    foldBool fold (.inVector span (← value.optimize fold) (← vector.optimize fold))
  | .wrapper span value => do
    foldBool fold (.wrapper span (← value.optimize fold))
  | .boundary span edge relation resolved => .ok (.boundary span edge relation resolved)
  | .stepReference span step => .ok (.stepReference span step)

/-- The value with everything known at compile time replaced by constants. -/
def ValueExpr.optimize (fold : Bool) : ValueExpr → Except Diagnostic ValueExpr
  | .constant span value => .ok (.constant span value)
  | .path span name resolved => .ok (.path span name resolved)
  | .parameter span name type => .ok (.parameter span name type)
  | .binary span op left right => do
    foldValue fold (.binary span op (← left.optimize fold) (← right.optimize fold))
  | .unary span sign operand => do
    foldValue fold (.unary span sign (← operand.optimize fold))
  | .cast span target operand => do
    foldValue fold (.cast span target (← operand.optimize fold))
  | .conversion span kind operand => do
    foldValue fold (.conversion span kind (← operand.optimize fold))
  | .quantum span taken operand zone timeZone => do
    foldValue fold (.quantum span taken (← operand.optimize fold) zone timeZone)
  | .call span name _ none => .error (.of .unresolvedReference span name)
  | .call span name arguments (some binding) =>
    if optimizesArguments binding.function then do
      foldValue fold (.call span name (← ValueExpr.optimizeAll fold arguments) (some binding))
    else foldValue fold (.call span name arguments (some binding))
  | .aggregation span op count target condition scope quanta scopePath => do
    let count ← match count with
      | some count => some <$> count.optimize fold
      | none => pure none
    let target ← target.optimize fold
    let condition ← match condition with
      | some condition => some <$> condition.optimize fold
      | none => pure none
    let quanta ← match quanta with
      | some quanta => some <$> quanta.optimize fold
      | none => pure none
    foldValue fold (.aggregation span op count target condition scope quanta scopePath)
  | .now span => .ok (.now span)

def ValueExpr.optimizeAll (fold : Bool) : List ValueExpr → Except Diagnostic (List ValueExpr)
  | [] => .ok []
  | node :: rest => do
    return (← node.optimize fold) :: (← ValueExpr.optimizeAll fold rest)

end

namespace Expr

/-- The optimized expression. -/
def optimize (fold : Bool) : Expr → Except Diagnostic Expr
  | bool node => do return bool (← node.optimize fold)
  | value node => do return value (← node.optimize fold)

end Expr

end EventQuery
