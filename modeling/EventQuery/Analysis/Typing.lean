import EventQuery.Diagnostic.Basic
import EventQuery.Expression.Basic

/-!
The type of a bound expression. A predicate has no type of its own, but its operands
have to be well typed.
-/
namespace EventQuery

namespace Typing

/-- The type that was found for a part, or why it has none. -/
abbrev Found := Except Diagnostic DataType

def typeError (span : Span) (detail : String) : Diagnostic := .of .typeError span detail

/-- The diagnostic of a name that was not bound. -/
def unresolved (span : Span) (name : String) : Diagnostic := .of .unresolvedReference span name

/-- The common type of two types that are compared. -/
def common (span : Span) (a b : DataType) : Found :=
  match DataType.common? a b with
  | some type => .ok type
  | none => .error (typeError span s!"cannot compare {a.name} with {b.name}")

/-! ### Functions -/

/-- A call: its span, the name of the function, and the spans and types of its
arguments. -/
structure Call where
  span : Span
  name : String
  arguments : List (Span × Found)

namespace Call

/-- The type of an argument that has to be of an expected one; `NULL` always is. -/
def expect (call : Call) (index : Nat) (expected : String) (accepts : DataType → Bool) : Found :=
  match call.arguments[index]? with
  | none => .error (unresolved call.span call.name)
  | some (span, found) => do
    let type ← found
    if type = .null || accepts type then return type
    throw (typeError span
      s!"argument {index + 1} of `{call.name}` must be {expected}, found {type.name}")

/-- Every argument behind the first one is compared with the first. -/
def checkCandidates (call : Call) : Except Diagnostic Unit :=
  match call.arguments with
  | [] => .error (unresolved call.span call.name)
  | (_, first) :: candidates => do
    let value ← first
    candidates.forM fun (span, found) => do
      let type ← found
      if (DataType.common? value type).isNone then
        throw (typeError span
          s!"`{call.name}` cannot compare {value.name} with {type.name}")

end Call

def isString (type : DataType) : Bool := type == .string

def isDatetime (type : DataType) : Bool := type == .datetime

/-- The arguments of `format_datetime` behind the first one are strings. -/
def checkStrings (call : Call) : Except Diagnostic Unit :=
  (List.range (call.arguments.length - 1)).forM fun index => do
    let _ ← call.expect (index + 1) "a STRING" isString

def callType (call : Call) (binding : Binding) : Found :=
  match binding.function, binding.state with
  | .parseDatetime, _ => do
    let _ ← call.expect 0 "a STRING" isString
    return .datetime
  | .formatDatetime, _ => do
    let _ ← call.expect 0 "a DATETIME" isDatetime
    checkStrings call
    return .string
  | .epochMillis, _ => do
    let _ ← call.expect 0 "a DATETIME" isDatetime
    return .long
  | .enum, _ => do
    call.checkCandidates
    return .integer
  | .split, _ => do
    let _ ← call.expect 0 "numeric or DATETIME" fun type => type.isNumeric || isDatetime type
    call.checkCandidates
    return .integer
  | .frequency, .target _ => .ok .long
  | .size, .target _ => .ok .integer
  | .about reference, .referent .. => .ok reference.type
  | _, _ => .error (unresolved call.span call.name)

/-! ### Operators -/

def constantPredicate (span : Span) (value : Constant) : Except Diagnostic Unit :=
  if value.type = .boolean ∨ value.type = .null then .ok ()
  else .error (typeError span s!"{value.type.name} constant used as a predicate")

/-- Whether values of a type may be put in order by `what`. -/
def checkOrdered (span : Span) (what : String) (type : DataType) : Except Diagnostic Unit :=
  if type = .boolean || !type.isOrderable then
    .error (typeError span s!"{what} needs ordered operands, found {type.name}")
  else .ok ()

def checkComparison (span : Span) (op : Relation) (left right : DataType) :
    Except Diagnostic Unit := do
  let type ← common span left right
  if op.isOrdering then checkOrdered span s!"`{op.symbol}`" type

def checkBounds (span : Span) (value : DataType) (lower upper : Found) :
    Except Diagnostic Unit := do
  let type ← common span value (← lower)
  let type ← common span type (← upper)
  checkOrdered span "BETWEEN" type

def checkCandidates (value : DataType) (candidates : List (Span × Found)) :
    Except Diagnostic Unit :=
  candidates.forM fun (span, found) => do
    let _ ← common span value (← found)

def checkVector (span : Span) (value : DataType) (vector : ValueExpr) (found : Found) :
    Except Diagnostic Unit := do
  if !vector.resolved?.any Path.isVector then
    throw (typeError vector.span "IN needs a vector field on the right-hand side")
  let _ ← common span value (← found)

/-- Values of these types are taken for predicates. -/
def checkPredicate (span : Span) (type : DataType) : Except Diagnostic Unit :=
  if type = .boolean || type = .null || type.isNumeric then .ok ()
  else .error (typeError span s!"{type.name} value used as a predicate")

def pathType (span : Span) (name : String) (resolved : Option Path) : Found :=
  match resolved with
  | none => .error (unresolved span name)
  | some path =>
    match path.type? with
    | some type => .ok type
    | none => .error (typeError span s!"relation `{path.dotted}` used as a value")

def binaryType (span : Span) (op : Arithmetic) (left right : DataType) : Found :=
  match op.type? left right with
  | some type => .ok type
  | none =>
    .error (typeError span s!"cannot apply `{op.symbol}` to {left.name} and {right.name}")

def unaryType (span : Span) (sign : Sign) (operand : DataType) : Found :=
  if operand.isNumeric || operand = .null then .ok operand
  else
    .error (typeError span
      s!"unary `{sign.symbol}` needs a numeric operand, found {operand.name}")

def castType (span : Span) (target operand : DataType) : Found :=
  if DataType.isLegalCast operand target then .ok target
  else .error (typeError span s!"cannot cast {operand.name} to {target.name}")

def conversionType (span : Span) (kind : Conversion) (operand : DataType) : Found :=
  let (accepted, result) := match kind with
    | .toMillis => (isDatetime operand, DataType.long)
    | .toDatetime => (operand.isIntegral, .datetime)
    | _ => (operand.isIntegral, .long)
  if accepted || operand = .null then .ok result
  else .error (typeError span s!"{kind.keyword} does not accept {operand.name}")

def quantumType (span : Span) (taken : Quantum) (operand : DataType) : Found :=
  if operand = .datetime || operand = .null then
    .ok <| match taken with
      | .truncate _ => .datetime
      | .extract _ => .integer
  else .error (typeError span s!"{taken.keyword} needs a DATETIME, found {operand.name}")

/-- The count and the quanta of an aggregation are integral. -/
def checkCount (op : AggregationOp) (span : Span) (type : DataType) : Except Diagnostic Unit :=
  if type.isIntegral then .ok ()
  else .error (typeError span s!"{op.keyword} needs an integral count, found {type.name}")

/-- The type of an aggregation. Whole relations can be counted. -/
def aggregationType (span : Span) (op : AggregationOp) (target : ValueExpr) (found : Found) :
    Found :=
  let ordered : Found := do
    let type ← found
    if type = .boolean || !type.isOrderable then
      throw (typeError span s!"{op.keyword} needs an ordered value, found {type.name}")
    return type
  let counted : Found :=
    if target.resolved?.any Path.isRelation then .ok .long
    else do
      let _ ← found
      return .long
  match op with
  | .count => counted
  | .unique => counted
  | .sum => do
    let type ← found
    if type = .double then return .double
    if type.isNumeric || type = .null then return .long
    throw (typeError span s!"SUM needs a numeric value, found {type.name}")
  | .min => ordered
  | .max => ordered
  | .top => ordered

end Typing

open Typing

mutual

/-- Fails if an operand is ill typed. -/
def BoolExpr.checkTypes : BoolExpr → Except Diagnostic Unit
  | .constant span value => constantPredicate span value
  | .binary _ _ left right => do
    left.checkTypes
    right.checkTypes
  | .not _ operand => operand.checkTypes
  | .comparison span op left right => do
    checkComparison span op (← left.type) (← right.type)
  | .bounds span _ value lower upper => do
    checkBounds span (← value.type) lower.type upper.type
  | .nullTest _ _ operand => do
    let _ ← operand.type
  | .inList _ value candidates => do
    checkCandidates (← value.type) (ValueExpr.types candidates)
  | .inVector span value vector => do
    checkVector span (← value.type) vector vector.type
  | .wrapper span value => do
    checkPredicate span (← value.type)
  | .boundary .. => .ok ()
  | .stepReference .. => .ok ()

def ValueExpr.type : ValueExpr → Found
  | .constant _ value => .ok value.type
  | .path span name resolved => pathType span name resolved
  | .parameter span name none => .error (unresolved span ("$" ++ name))
  | .parameter _ _ (some type) => .ok type
  | .binary span op left right => do
    binaryType span op (← left.type) (← right.type)
  | .unary span sign operand => do
    unaryType span sign (← operand.type)
  | .cast span target operand => do
    castType span target (← operand.type)
  | .conversion span kind operand => do
    conversionType span kind (← operand.type)
  | .quantum span taken operand _ _ => do
    quantumType span taken (← operand.type)
  | .call span name _ none => .error (unresolved span name)
  | .call span name arguments (some binding) =>
    callType ⟨span, name, ValueExpr.types arguments⟩ binding
  | .aggregation span op count target condition _ quanta _ => do
    match condition with
    | some condition => condition.checkTypes
    | none => pure ()
    match count with
    | some count => checkCount op count.span (← count.type)
    | none => pure ()
    match quanta with
    | some quanta => checkCount op quanta.span (← quanta.type)
    | none => pure ()
    aggregationType span op target target.type
  | .now _ => .ok .datetime

/-- The spans and types of several values. -/
def ValueExpr.types : List ValueExpr → List (Span × Found)
  | [] => []
  | node :: rest => (node.span, node.type) :: ValueExpr.types rest

end

/-- The type of an expression; predicates are `BOOLEAN`. -/
def Expr.type : Expr → Found
  | .bool node => do
    node.checkTypes
    return .boolean
  | .value node => node.type

end EventQuery
