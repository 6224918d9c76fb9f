import EventQuery.Constant.Basic
import EventQuery.Expression.Traversal

/-!
The outline of a tree: one line a node with its kind and what distinguishes it, each
level two spaces deeper. It also shows what binding has found out.
-/
namespace EventQuery

/-- Two spaces a level. -/
def indentation (level : Nat) : String := "".pushn ' ' (2 * level)

/-- A constant with its type. -/
def Constant.detail (value : Constant) : String := s!"{value.type.name} {value.display}"

/-- An arrow to the path that a name was bound to. -/
def resolvedDetail (resolved : Option Path) : String :=
  match resolved with
  | some path => " -> " ++ path.dotted
  | none => ""

def BoolExpr.detail : BoolExpr → String
  | .constant _ value => value.detail
  | .binary _ op _ _ => op.keyword
  | .not .. => ""
  | .comparison _ op _ _ => op.symbol
  | .bounds _ op _ _ _ => op.keyword
  | .nullTest _ op _ => op.keyword
  | .inList .. => "list"
  | .inVector .. => "vector"
  | .wrapper .. => ""
  | .boundary _ edge relation resolved =>
    s!"{edge.keyword} {relation}{resolvedDetail resolved}"
  | .stepReference _ step => s!"step {step}"

def ValueExpr.detail : ValueExpr → String
  | .constant _ value => value.detail
  | .path _ name resolved => name ++ resolvedDetail resolved
  | .parameter _ name none => s!"${name}"
  | .parameter _ name (some type) => s!"${name} {type.name}"
  | .binary _ op _ _ => op.symbol
  | .unary _ sign _ => sign.symbol
  | .cast _ target _ => s!"AS {target.name}"
  | .conversion _ kind _ => kind.keyword
  | .quantum _ taken _ none _ => s!"{taken.keyword} {taken.unitKeyword}"
  | .quantum _ taken _ (some zone) _ => s!"{taken.keyword} {taken.unitKeyword} {zone}"
  | .call _ name _ _ => name
  | .aggregation _ op _ _ _ none _ _ => op.keyword
  | .aggregation _ op _ _ _ (some scope) _ _ => s!"{op.keyword} scope={scope}"
  | .now _ => ""

namespace Expr

/-- What distinguishes a node from others of its kind. -/
def detail : Expr → String
  | bool node => node.detail
  | value node => node.detail

def outlineLine (level : Nat) (node : Expr) : String :=
  let detail := node.detail
  indentation level ++ node.kind ++ (if detail.isEmpty then "" else " " ++ detail) ++ "\n"

def outline (level : Nat) (expr : Expr) : String :=
  String.join ((expr.nodesFrom level).map fun (level, node) => outlineLine level node)

end Expr

end EventQuery
