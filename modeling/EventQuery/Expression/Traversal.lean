import EventQuery.Expression.Basic

/-!
All nodes of a tree in source order, each before its children, with the level it
lies at. The root lies at the level given.
-/
namespace EventQuery

mutual

/-- The nodes below a predicate; its children lie at `level`. -/
def BoolExpr.belowFrom (level : Nat) : BoolExpr → List (Nat × Expr)
  | .constant .. => []
  | .binary _ _ left right =>
    (level, .bool left) :: left.belowFrom (level + 1)
      ++ (level, .bool right) :: right.belowFrom (level + 1)
  | .not _ operand => (level, .bool operand) :: operand.belowFrom (level + 1)
  | .comparison _ _ left right =>
    (level, .value left) :: left.belowFrom (level + 1)
      ++ (level, .value right) :: right.belowFrom (level + 1)
  | .bounds _ _ value lower upper =>
    (level, .value value) :: value.belowFrom (level + 1)
      ++ (level, .value lower) :: lower.belowFrom (level + 1)
      ++ (level, .value upper) :: upper.belowFrom (level + 1)
  | .nullTest _ _ operand => (level, .value operand) :: operand.belowFrom (level + 1)
  | .inList _ value candidates =>
    (level, .value value) :: value.belowFrom (level + 1)
      ++ ValueExpr.nodesOfAllFrom level candidates
  | .inVector _ value vector =>
    (level, .value value) :: value.belowFrom (level + 1)
      ++ (level, .value vector) :: vector.belowFrom (level + 1)
  | .wrapper _ value => (level, .value value) :: value.belowFrom (level + 1)
  | .boundary .. => []
  | .stepReference .. => []

/-- The nodes below a value; its children lie at `level`. -/
def ValueExpr.belowFrom (level : Nat) : ValueExpr → List (Nat × Expr)
  | .constant .. => []
  | .path .. => []
  | .parameter .. => []
  | .binary _ _ left right =>
    (level, .value left) :: left.belowFrom (level + 1)
      ++ (level, .value right) :: right.belowFrom (level + 1)
  | .unary _ _ operand => (level, .value operand) :: operand.belowFrom (level + 1)
  | .cast _ _ operand => (level, .value operand) :: operand.belowFrom (level + 1)
  | .conversion _ _ operand => (level, .value operand) :: operand.belowFrom (level + 1)
  | .quantum _ _ operand _ _ => (level, .value operand) :: operand.belowFrom (level + 1)
  | .call _ _ arguments _ => ValueExpr.nodesOfAllFrom level arguments
  | .aggregation _ _ count target condition _ quanta _ =>
    let ofCount := match count with
      | some count => (level, .value count) :: count.belowFrom (level + 1)
      | none => []
    let ofCondition := match condition with
      | some condition => (level, .bool condition) :: condition.belowFrom (level + 1)
      | none => []
    let ofQuanta := match quanta with
      | some quanta => (level, .value quanta) :: quanta.belowFrom (level + 1)
      | none => []
    ofCount ++ (level, .value target) :: target.belowFrom (level + 1) ++ ofCondition ++ ofQuanta
  | .now _ => []

def ValueExpr.nodesOfAllFrom (level : Nat) : List ValueExpr → List (Nat × Expr)
  | [] => []
  | node :: rest =>
    (level, .value node) :: node.belowFrom (level + 1) ++ ValueExpr.nodesOfAllFrom level rest

end

/-- The nodes of an expression that lies at `level`. -/
def Expr.nodesFrom (level : Nat) : Expr → List (Nat × Expr)
  | .bool node => (level, .bool node) :: node.belowFrom (level + 1)
  | .value node => (level, .value node) :: node.belowFrom (level + 1)

end EventQuery
