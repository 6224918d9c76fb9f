import EventQuery.Constant.Text
import EventQuery.Expression.Basic

/-!
The canonical text of expressions. Every operator stands in parentheses of its own,
so that the text reads back without any rule of precedence.
-/
namespace EventQuery

/-- Texts joined by commas. -/
def commaSeparated (texts : List String) : String := ", ".intercalate texts

mutual

def BoolExpr.text : BoolExpr → String
  | .constant _ value => value.text
  | .binary _ op left right => s!"({left.text} {op.keyword} {right.text})"
  | .not _ operand => s!"(NOT {operand.text})"
  | .comparison _ op left right => s!"({left.text} {op.symbol} {right.text})"
  | .bounds _ op value lower upper =>
    s!"({value.text} {op.keyword} {lower.text} AND {upper.text})"
  | .nullTest _ op operand => s!"({operand.text} {op.keyword})"
  | .inList _ value candidates =>
    s!"({value.text} IN ({commaSeparated (ValueExpr.texts candidates)}))"
  | .inVector _ value vector => s!"({value.text} IN {vector.text})"
  | .wrapper _ value => value.text
  | .boundary _ edge relation _ => s!"{edge.keyword}({relation})"
  | .stepReference _ step => s!"STEP({step})"

def ValueExpr.text : ValueExpr → String
  | .constant _ value => value.text
  | .path _ name _ => name
  | .parameter _ name _ => s!"${name}"
  | .binary _ op left right => s!"({left.text} {op.symbol} {right.text})"
  | .unary _ sign operand => s!"({sign.symbol}{operand.text})"
  | .cast _ target operand => Constant.castText operand.text target
  | .conversion _ kind operand => s!"{kind.keyword}({operand.text})"
  | .quantum _ taken operand zone _ =>
    let zoneText := match zone with
      | some zone => ", " ++ Text.Quoted.quote zone
      | none => ""
    s!"{taken.keyword}({taken.unitKeyword}, {operand.text}{zoneText})"
  | .call _ name arguments _ => s!"{name}({commaSeparated (ValueExpr.texts arguments)})"
  | .aggregation _ op count target condition scope quanta _ =>
    let countText := match count with
      | some count => if op == AggregationOp.top then count.text ++ ", " else ""
      | none => ""
    let conditionText := match condition with
      | some condition => " WHERE " ++ condition.text
      | none => ""
    let scopeText := match scope with
      | some scope => " SCOPE " ++ scope
      | none => ""
    let quantaText := match quanta with
      | some quanta => " QUANTA " ++ quanta.text
      | none => ""
    s!"{op.keyword}({countText}{target.text}{conditionText}{scopeText}{quantaText})"
  | .now _ => "NOW()"

def ValueExpr.texts : List ValueExpr → List String
  | [] => []
  | node :: rest => node.text :: ValueExpr.texts rest

end

def Expr.text : Expr → String
  | .bool node => node.text
  | .value node => node.text

end EventQuery
