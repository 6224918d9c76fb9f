import EventQuery.Expression.Basic

/-!
The children of a node, numbered in source order. A place takes only nodes of its
family, so replacing a child fails when the place is missing or the family is the
other one.
-/
namespace EventQuery

/-- A place for a child: the child that stands in it, and the node that has another one
of the family there. -/
inductive Place (node : Type) where
  | bool (occupant : BoolExpr) (filledWith : BoolExpr → node)
  | value (occupant : ValueExpr) (filledWith : ValueExpr → node)

namespace Place

def occupant : Place node → Expr
  | bool occupant _ => .bool occupant
  | value occupant _ => .value occupant

/-- The place seen from a type that the node goes into. -/
def map (wrap : node → node') : Place node → Place node'
  | bool occupant filledWith => bool occupant fun child => wrap (filledWith child)
  | value occupant filledWith => value occupant fun child => wrap (filledWith child)

end Place

namespace BoolExpr

def children : BoolExpr → List Expr
  | constant .. => []
  | binary _ _ left right => [.bool left, .bool right]
  | not _ operand => [.bool operand]
  | comparison _ _ left right => [.value left, .value right]
  | bounds _ _ value lower upper => [.value value, .value lower, .value upper]
  | nullTest _ _ operand => [.value operand]
  | inList _ value candidates => .value value :: candidates.map .value
  | inVector _ value vector => [.value value, .value vector]
  | wrapper _ value => [.value value]
  | boundary .. => []
  | stepReference .. => []

/-- The places for children. -/
def places : BoolExpr → List (Place BoolExpr)
  | constant .. => []
  | binary span op left right =>
    [.bool left fun child => binary span op child right,
      .bool right fun child => binary span op left child]
  | not span operand => [.bool operand fun child => not span child]
  | comparison span op left right =>
    [.value left fun child => comparison span op child right,
      .value right fun child => comparison span op left child]
  | bounds span op value lower upper =>
    [.value value fun child => bounds span op child lower upper,
      .value lower fun child => bounds span op value child upper,
      .value upper fun child => bounds span op value lower child]
  | nullTest span op operand => [.value operand fun child => nullTest span op child]
  | inList span value candidates =>
    .value value (fun child => inList span child candidates) ::
      candidates.mapIdx fun index candidate =>
        .value candidate fun child => inList span value (candidates.set index child)
  | inVector span value vector =>
    [.value value fun child => inVector span child vector,
      .value vector fun child => inVector span value child]
  | wrapper span value => [.value value fun child => wrapper span child]
  | boundary .. => []
  | stepReference .. => []

end BoolExpr

namespace ValueExpr

def children : ValueExpr → List Expr
  | constant .. => []
  | path .. => []
  | parameter .. => []
  | binary _ _ left right => [.value left, .value right]
  | unary _ _ operand => [.value operand]
  | cast _ _ operand => [.value operand]
  | conversion _ _ operand => [.value operand]
  | quantum _ _ operand _ _ => [.value operand]
  | call _ _ arguments _ => arguments.map .value
  | aggregation _ _ count target condition _ quanta _ =>
    count.toList.map .value ++ .value target :: condition.toList.map .bool
      ++ quanta.toList.map .value
  | now _ => []

/-- The places for children. A part that an aggregation was written without has none. -/
def places : ValueExpr → List (Place ValueExpr)
  | constant .. => []
  | path .. => []
  | parameter .. => []
  | binary span op left right =>
    [.value left fun child => binary span op child right,
      .value right fun child => binary span op left child]
  | unary span sign operand => [.value operand fun child => unary span sign child]
  | cast span target operand => [.value operand fun child => cast span target child]
  | conversion span kind operand => [.value operand fun child => conversion span kind child]
  | quantum span taken operand zone timeZone =>
    [.value operand fun child => quantum span taken child zone timeZone]
  | call span name arguments binding =>
    arguments.mapIdx fun index argument =>
      .value argument fun child => call span name (arguments.set index child) binding
  | aggregation span op count target condition scope quanta scopePath =>
    (count.toList.map fun old => .value old fun child =>
        aggregation span op (some child) target condition scope quanta scopePath)
      ++ .value target (fun child =>
        aggregation span op count child condition scope quanta scopePath)
      :: (condition.toList.map fun old => .bool old fun child =>
        aggregation span op count target (some child) scope quanta scopePath)
      ++ quanta.toList.map fun old => .value old fun child =>
        aggregation span op count target condition scope (some child) scopePath
  | now _ => []

end ValueExpr

namespace Expr

def children : Expr → List Expr
  | bool node => node.children
  | value node => node.children

def child? (expr : Expr) (index : Nat) : Option Expr := expr.children[index]?

def places : Expr → List (Place Expr)
  | bool node => node.places.map (.map bool)
  | value node => node.places.map (.map value)

def place? (expr : Expr) (index : Nat) : Option (Place Expr) := expr.places[index]?

/-- The expression with another child in a place, and the child that was there before. If
the place is missing or takes the other family, nothing changes and the offered child
comes back. -/
def setChild (expr : Expr) (index : Nat) (offered : Expr) : Except Expr (Expr × Expr) :=
  match expr.place? index, offered with
  | some (.bool old filledWith), bool new => .ok (filledWith new, bool old)
  | some (.value old filledWith), value new => .ok (filledWith new, value old)
  | _, _ => .error offered

end Expr

end EventQuery
