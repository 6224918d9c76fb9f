import EventQuery.Analysis.Axis
import EventQuery.Analysis.Context
import EventQuery.Analysis.Reduce
import EventQuery.Analysis.Stopped

/-!
Validation of bound expressions: every node is checked by itself, then the type and
the evaluation point of the whole. Counts that have to be known at compile time are
replaced by their constants.
-/
namespace EventQuery

namespace Validate

open Stopped (check)

/-! ### Positions that need a constant -/

/-- The constant in a position that needs one, called `what`. -/
def requiredConstant (node : ValueExpr) (what : String) : Except Diagnostic Constant :=
  if node.isConstant then node.reduce
  else .error (.of .constantRequired node.span s!"{what} depends on runtime data")

/-- The number in a constant that has to be integral and at least `least`. -/
def requiredCount (span : Span) (value : Constant) (what : String) (least : Int) :
    Except Diagnostic Int := do
  let typeError (detail : String) : Diagnostic := .of .typeError span detail
  let some count := if value.type.isIntegral then value.integral? else none
    | throw (typeError s!"{what} must be an integer, found {value.type.name}")
  if count < least then throw (typeError s!"{what} must be at least {least}, found {count}")
  return count

/-- A count, replaced by its constant, and the number in it. -/
def foldCount (node : ValueExpr) (what : String) (least : Int) :
    Except (Stopped ValueExpr) (ValueExpr × Int) := do
  let value ← check node (requiredConstant node what)
  let folded := ValueExpr.constant node.span value
  let count ← check folded (requiredCount node.span value what least)
  return (folded, count)

/-- A duration in milliseconds, replaced by its constant of type `LONG`. -/
def foldDuration (node : ValueExpr) (what : String) : Except (Stopped ValueExpr) ValueExpr := do
  let (_, millis) ← foldCount node what 0
  return .constant node.span (.long (Int64.ofInt millis))

/-! ### Calls -/

/-- A call of the function with validated arguments. -/
def reduceCall (span : Span) (name : String) (arguments : List ValueExpr) : Reduce.Call :=
  ⟨span, name, ValueExpr.arguments arguments⟩

/-- The constants of a list are in strictly ascending order. `index` is the position of
the first one among the arguments. -/
def checkAscending (span : Span) (arguments : List ValueExpr) (index : Nat) :
    List Constant → Except Diagnostic Unit
  | a :: b :: rest => do
    if ← Reduce.orFault span (Constant.compareBy .lt a b) then
      checkAscending span arguments (index + 1) (b :: rest)
    else
      let place := (arguments[index + 1]?.map ValueExpr.span).getD span
      throw (.of .typeError place "boundaries of `split` must be strictly ascending")
  | _ => .ok ()

/-- The zone that the third argument of `format_datetime` names, if there is one. -/
def explicitZone [ZoneTable] (call : Reduce.Call) (arguments : List ValueExpr) :
    Except Diagnostic (Option TimeZone) :=
  match arguments with
  | [_, _, zone] => do
    let value ← call.constant 2
    let some name := value.string? | throw (.of .typeError zone.span "time zone must be a STRING")
    return some (← timeZone name zone.span)
  | _ => .ok none

/-- A format that is known at compile time has to be one. -/
def checkFormat (format : ValueExpr) : Except Diagnostic Unit := do
  if format.isConstant then
    if let some text := (← format.reduce).string? then
      if (Calendar.Format.text? 0 text .utc).isNone then
        throw (.of .typeError format.span s!"invalid datetime format `{text}`")

/-- The checks of one call with validated arguments. -/
def checkCall [ZoneTable] (span : Span) (name : String) (arguments : List ValueExpr)
    (binding : Binding) : Except (Stopped ValueExpr) Binding := do
  let call := reduceCall span name arguments
  let node (binding : Binding) : ValueExpr := .call span name arguments (some binding)
  match binding.function with
  | .enum =>
    let _ ← check (node binding) call.constantTail
    return binding
  | .split =>
    check (node binding) do
      let boundaries ← call.constantTail
      checkAscending span arguments 1 boundaries
    return binding
  | .formatDatetime =>
    let zone ← check (node binding) (explicitZone call arguments)
    let binding := match zone with
      | some zone => { binding with state := .zone zone }
      | none => binding
    match arguments[1]? with
    | some format => check (node binding) (checkFormat format)
    | none => pure ()
    return binding
  | _ => return binding

/-- Whether validation looks at the arguments of a call. -/
def validatesArguments : Function → Bool
  | .about _ => false
  | _ => true

/-! ### Aggregations -/

/-- `TOP` takes a count, and nothing else does. -/
def checkTop (span : Span) (op : AggregationOp) (hasCount : Bool) : Except Diagnostic Unit :=
  if op = .top ∧ !hasCount then .error (.of .arityError span s!"`{op.keyword}` needs a count")
  else if op ≠ .top ∧ hasCount then
    .error (.of .arityError span s!"`{op.keyword}` does not take a count")
  else .ok ()

end Validate

open Stopped (check within)

mutual

/-- The predicate with its counts replaced by constants. -/
def BoolExpr.validate [ZoneTable] : BoolExpr → Except (Stopped BoolExpr) BoolExpr
  | .constant span value => return .constant span value
  | .binary span op left right => do
    let left ← within left.validate fun left => .binary span op left right
    let right ← within right.validate fun right => .binary span op left right
    return .binary span op left right
  | .not span operand => do
    return .not span (← within operand.validate fun operand => .not span operand)
  | .comparison span op left right => do
    let left ← within left.validate fun left => .comparison span op left right
    let right ← within right.validate fun right => .comparison span op left right
    return .comparison span op left right
  | .bounds span op value lower upper => do
    let value ← within value.validate fun value => .bounds span op value lower upper
    let lower ← within lower.validate fun lower => .bounds span op value lower upper
    let upper ← within upper.validate fun upper => .bounds span op value lower upper
    return .bounds span op value lower upper
  | .nullTest span op operand => do
    return .nullTest span op (← within operand.validate fun operand => .nullTest span op operand)
  | .inList span value candidates => do
    let value ← within value.validate fun value => .inList span value candidates
    let candidates ← within (ValueExpr.validateAll candidates) fun candidates =>
      .inList span value candidates
    return .inList span value candidates
  | .inVector span value vector => do
    let value ← within value.validate fun value => .inVector span value vector
    let vector ← within vector.validate fun vector => .inVector span value vector
    return .inVector span value vector
  | .wrapper span value => do
    return .wrapper span (← within value.validate fun value => .wrapper span value)
  | .boundary span edge relation resolved => return .boundary span edge relation resolved
  | .stepReference span step => return .stepReference span step

/-- The value with its counts replaced by constants. -/
def ValueExpr.validate [ZoneTable] : ValueExpr → Except (Stopped ValueExpr) ValueExpr
  | .constant span value => return .constant span value
  | .path span name resolved => return .path span name resolved
  | .parameter span name type => return .parameter span name type
  | .binary span op left right => do
    let left ← within left.validate fun left => .binary span op left right
    let right ← within right.validate fun right => .binary span op left right
    return .binary span op left right
  | .unary span sign operand => do
    return .unary span sign (← within operand.validate fun operand => .unary span sign operand)
  | .cast span target operand => do
    return .cast span target (← within operand.validate fun operand => .cast span target operand)
  | .conversion span kind operand => do
    return .conversion span kind
      (← within operand.validate fun operand => .conversion span kind operand)
  | .quantum span taken operand zone known => do
    let operand ← within operand.validate fun operand => .quantum span taken operand zone known
    match zone with
    | some name =>
      let found ← check (.quantum span taken operand zone known) (timeZone name span)
      return .quantum span taken operand zone (some found)
    | none => return .quantum span taken operand zone known
  | .call span name arguments none =>
    throw ⟨.of .unresolvedReference span name, .call span name arguments none⟩
  | .call span name arguments (some binding) =>
    if Validate.validatesArguments binding.function then do
      let arguments ← within (ValueExpr.validateAll arguments) fun arguments =>
        .call span name arguments (some binding)
      return .call span name arguments (some (← Validate.checkCall span name arguments binding))
    else return .call span name arguments (some binding)
  | .aggregation span op count target condition scope quanta scopePath => do
    let node (count : Option ValueExpr) (target : ValueExpr) (condition : Option BoolExpr)
        (quanta : Option ValueExpr) : ValueExpr :=
      .aggregation span op count target condition scope quanta scopePath
    check (node count target condition quanta) (Validate.checkTop span op count.isSome)
    let target ← within target.validate fun target => node count target condition quanta
    let condition ← match condition with
      | some condition =>
        some <$> within condition.validate fun condition =>
          node count target (some condition) quanta
      | none => pure none
    let count ← match count with
      | some count => do
        let place (count : ValueExpr) := node (some count) target condition quanta
        let count ← within count.validate place
        let (folded, _) ← within (Validate.foldCount count "TOP count" 1) place
        pure (some folded)
      | none => pure none
    let quanta ← match quanta with
      | some quanta => do
        let place (quanta : ValueExpr) := node count target condition (some quanta)
        let quanta ← within quanta.validate place
        let (folded, _) ← within (Validate.foldCount quanta "QUANTA" 1) place
        pure (some folded)
      | none => pure none
    return node count target condition quanta
  | .now span => return .now span

def ValueExpr.validateAll [ZoneTable] :
    List ValueExpr → Except (Stopped (List ValueExpr)) (List ValueExpr)
  | [] => return []
  | node :: rest => do
    let node ← within node.validate fun node => node :: rest
    let rest ← within (ValueExpr.validateAll rest) fun rest => node :: rest
    return node :: rest

end

namespace BoolExpr

/-- The validated predicate and its evaluation point, if its types are right. -/
def checked [ZoneTable] (node : BoolExpr) :
    Except (Stopped BoolExpr) (BoolExpr × Option Path) := do
  let node ← node.validate
  check node node.checkTypes
  return (node, ← check node node.point)

end BoolExpr

namespace ValueExpr

/-- The validated value and its evaluation point, if its types are right. -/
def checked [ZoneTable] (node : ValueExpr) :
    Except (Stopped ValueExpr) (ValueExpr × Option Path) := do
  let node ← node.validate
  let _ ← check node node.type
  return (node, ← check node node.point)

end ValueExpr

namespace Expr

/-- The validated expression and its evaluation point, if its types are right. -/
def validate [ZoneTable] : Expr → Except (Stopped Expr) (Expr × Option Path)
  | bool node => do
    let (node, point) ← within node.checked bool
    return (bool node, point)
  | value node => do
    let (node, point) ← within node.checked value
    return (value node, point)

end Expr

end EventQuery
