import EventQuery.Calendar.Format
import EventQuery.Constant.Cast
import EventQuery.Diagnostic.Basic
import EventQuery.Expression.Basic

/-!
Reduction to constants. An expression is constant when its value is known at compile
time: literals, and operators and functions over constants. Paths, parameters, the
present time, aggregations, boundaries and step references never are.
-/
namespace EventQuery

namespace Reduce

/-- The constant that was found for a part, or why it has none. -/
abbrev Found := Except Diagnostic Constant

/-- The diagnostic of an operation that failed on constants. -/
def fault (span : Span) (error : ConstantError) : Diagnostic :=
  .of (if error.isArithmetic then .arithmeticFault else .typeError) span error.message

def orFault (span : Span) (result : Except ConstantError α) : Except Diagnostic α :=
  result.mapError (fault span)

def notConstant (span : Span) : Diagnostic :=
  .of .constantRequired span "expression depends on runtime data"

/-! ### Calls -/

/-- An argument of a call: its span, whether it is constant, and its constant. -/
structure Argument where
  span : Span
  isConstant : Bool
  value : Found

/-- A call with what is known of its arguments. -/
structure Call where
  span : Span
  name : String
  arguments : List Argument

namespace Call

/-- The constant of an argument. -/
def constant (call : Call) (index : Nat) : Found :=
  match call.arguments[index]? with
  | none => .error (.of .unresolvedReference call.span call.name)
  | some argument =>
    if argument.isConstant then argument.value
    else
      .error (.of .constantRequired argument.span
        s!"argument {index + 1} of `{call.name}` must be a constant")

/-- The constants of all arguments behind the first one. -/
def constantTail (call : Call) : Except Diagnostic (List Constant) :=
  (List.range (call.arguments.length - 1)).mapM fun index => call.constant (index + 1)

end Call

def notBeforeRuntime (call : Call) : Diagnostic :=
  .of .constantRequired call.span s!"`{call.name}` cannot be evaluated before runtime"

/-- Whether a call is constant, when it is known which of its arguments are. -/
def isConstantCall (function : Function) (arguments : List Bool) : Bool :=
  match function with
  | .parseDatetime => arguments.all id
  | .formatDatetime => arguments.all id
  | .epochMillis => arguments.all id
  | .enum => arguments.all id
  | .split => arguments.all id
  | _ => false

/-- The position of the first candidate that equals a value, -1 if none does. -/
def enumIndex (span : Span) (value : Constant) (index : Nat) :
    List Constant → Except Diagnostic Constant
  | [] => .ok (.integer (-1))
  | candidate :: rest => do
    if ← orFault span (Constant.compareBy .eq value candidate) then
      return .ofInteger (Int64.ofNat index)
    enumIndex span value (index + 1) rest

/-- How many boundaries are not above a value. -/
def splitBucket (span : Span) (value : Constant) (bucket : Int32) :
    List Constant → Except Diagnostic Constant
  | [] => .ok (.integer bucket)
  | boundary :: rest => do
    let below ← orFault span (Constant.compareBy .lte boundary value)
    splitBucket span value (if below then bucket + 1 else bucket) rest

/-- The zone of a call of `format_datetime`. -/
def formatZone : CallState → TimeZone
  | .zone zone => zone
  | _ => .utc

def formatted (call : Call) (state : CallState) : Found := do
  let instant ← call.constant 0
  let format ← call.constant 1
  if instant.isNull || format.isNull then return .null
  match instant.integral?, format.string? with
  | some ms, some format =>
    match Calendar.Format.text? ms format (formatZone state) with
    | some text => return .string text
    | none => throw (.of .typeError call.span s!"cannot format {ms} with `{format}`")
  | _, _ => throw (notBeforeRuntime call)

/-- The constant of a call. -/
def callConstant (call : Call) (binding : Binding) : Found :=
  match binding.function with
  | .parseDatetime => do orFault call.span ((← call.constant 0).cast .datetime)
  | .epochMillis => do orFault call.span ((← call.constant 0).cast .long)
  | .formatDatetime => formatted call binding.state
  | .enum => do
    let value ← call.constant 0
    enumIndex call.span value 0 (← call.constantTail)
  | .split => do
    let value ← call.constant 0
    if value.isNull then return .null
    splitBucket call.span value 0 (← call.constantTail)
  | _ => .error (notBeforeRuntime call)

/-! ### Operators -/

def comparison (span : Span) (op : Relation) (left right : Constant) : Except Diagnostic Bool :=
  orFault span (Constant.compareBy op left right)

/-- Whether a value lies between two others. The upper one counts only if the value is
not below the lower one. -/
def isBetween (span : Span) (value : Constant) (lower upper : Found) : Except Diagnostic Bool := do
  if ← comparison span .gte value (← lower) then comparison span .lte value (← upper)
  else return false

/-- Whether a value equals one of the candidates. -/
def isAmong (span : Span) (value : Constant) : List Argument → Except Diagnostic Bool
  | [] => .ok false
  | candidate :: rest => do
    if ← comparison span .eq value (← candidate.value) then return true
    isAmong span value rest

def signedConstant (span : Span) (sign : Sign) (operand : Constant) : Found :=
  match sign with
  | .minus => orFault span operand.negate
  | .plus => .ok operand

/-- The constant of a conversion; counts of a unit become milliseconds. -/
def converted (span : Span) (kind : Conversion) (operand : Constant) : Found := do
  if operand.isNull then return .null
  match kind.millis? with
  | some millis =>
    let count ← orFault span (operand.cast .long)
    let total := count.integral?.getD 0 * millis
    orFault span (Constant.orOverflow .long .long (Number.Width.int64? total))
  | none =>
    match kind with
    | .toDatetime => orFault span (operand.cast .datetime)
    | _ => orFault span (operand.cast .long)

/-- The instant that starts a bucket whose start clocks show as `time`: the earliest one. -/
def startOf? (zone : TimeZone) (time : Int) : Option Int64 :=
  ((zone.instantOf? time).filter fun start => Calendar.Instant.InRange start).bind
    Number.Width.int64?

/-- The start of the bucket of an instant in a zone, or one of its components. -/
def quantized (taken : Quantum) (ms : Int) (zone : TimeZone) : Except ConstantError Constant :=
  if Calendar.Instant.InRange ms then
    let time := zone.localTime ms
    match taken with
    | .truncate unit =>
      match (Calendar.truncate? unit time).bind (startOf? zone) with
      | some start => .ok (.datetime start)
      | none => .error (.noLocalTime ms zone.name)
    | .extract part => .ok (.integer (Int32.ofInt (Calendar.component part time)))
  else .error (.noLocalTime ms zone.name)

/-- The instant has a date, but what clocks in the zone show then has none. -/
def LeavesCalendar (zone : TimeZone) (ms : Int) : Prop :=
  Calendar.Instant.InRange ms ∧ ¬Calendar.Instant.InRange (zone.localTime ms)

instance (zone : TimeZone) (ms : Int) : Decidable (LeavesCalendar zone ms) :=
  inferInstanceAs (Decidable (_ ∧ _))

/-- The end of a reduction that asks for a local time beyond the calendar. -/
def crash : Diagnostic := .ofKind .crash .none

def quantumConstant (span : Span) (taken : Quantum) (zone : Option TimeZone)
    (operand : Constant) : Found :=
  match operand with
  | .null => .ok .null
  | .datetime ms =>
    let zone := zone.getD .utc
    if LeavesCalendar zone ms.toInt then .error crash
    else orFault span (quantized taken ms.toInt zone)
  | other => .error (fault span (.mismatch taken.keyword other.type .datetime))

end Reduce

open Reduce

mutual

/-- Whether the truth of a predicate is known at compile time. -/
def BoolExpr.isConstant : BoolExpr → Bool
  | .constant .. => true
  | .binary _ _ left right => left.isConstant && right.isConstant
  | .not _ operand => operand.isConstant
  | .comparison _ _ left right => left.isConstant && right.isConstant
  | .bounds _ _ value lower upper => value.isConstant && lower.isConstant && upper.isConstant
  | .nullTest _ _ operand => operand.isConstant
  | .inList _ value candidates =>
    value.isConstant && (ValueExpr.areConstant candidates).all id
  | .inVector _ value vector => value.isConstant && vector.isConstant
  | .wrapper _ value => value.isConstant
  | .boundary .. => false
  | .stepReference .. => false

/-- Whether a value is known at compile time. -/
def ValueExpr.isConstant : ValueExpr → Bool
  | .constant .. => true
  | .path .. => false
  | .parameter .. => false
  | .binary _ _ left right => left.isConstant && right.isConstant
  | .unary _ _ operand => operand.isConstant
  | .cast _ _ operand => operand.isConstant
  | .conversion _ _ operand => operand.isConstant
  | .quantum _ _ operand _ _ => operand.isConstant
  | .call _ _ _ none => false
  | .call _ _ arguments (some binding) =>
    isConstantCall binding.function (ValueExpr.areConstant arguments)
  | .aggregation .. => false
  | .now _ => false

def ValueExpr.areConstant : List ValueExpr → List Bool
  | [] => []
  | node :: rest => node.isConstant :: ValueExpr.areConstant rest

end

mutual

/-- The truth of a constant predicate. -/
def BoolExpr.reduce : BoolExpr → Except Diagnostic Bool
  | .constant _ value => .ok value.isTruthy
  | .binary _ op left right => do
    let left ← left.reduce
    let right ← right.reduce
    return match op with
      | .and => left && right
      | .or => left || right
  | .not _ operand => do return !(← operand.reduce)
  | .comparison span op left right => do
    comparison span op (← left.reduce) (← right.reduce)
  | .bounds span op value lower upper => do
    let inside ← isBetween span (← value.reduce) lower.reduce upper.reduce
    return match op with
      | .between => inside
      | .notBetween => !inside
  | .nullTest _ op operand => do
    let isNull := (← operand.reduce).isNull
    return match op with
      | .isNull => isNull
      | .isNotNull => !isNull
  | .inList span value candidates => do
    isAmong span (← value.reduce) (ValueExpr.arguments candidates)
  | .inVector span _ _ => .error (notConstant span)
  | .wrapper _ value => do return (← value.reduce).isTruthy
  | .boundary span .. => .error (notConstant span)
  | .stepReference span _ => .error (notConstant span)

/-- The constant of a value. -/
def ValueExpr.reduce : ValueExpr → Found
  | .constant _ value => .ok value
  | .path span .. => .error (notConstant span)
  | .parameter span .. => .error (notConstant span)
  | .binary span op left right => do
    let left ← left.reduce
    let right ← right.reduce
    orFault span (left.operate op right)
  | .unary span sign operand => do
    signedConstant span sign (← operand.reduce)
  | .cast span target operand => do
    orFault span ((← operand.reduce).cast target)
  | .conversion span kind operand => do
    converted span kind (← operand.reduce)
  | .quantum span taken operand _ timeZone => do
    quantumConstant span taken timeZone (← operand.reduce)
  | .call span _ _ none => .error (notConstant span)
  | .call span name arguments (some binding) =>
    callConstant ⟨span, name, ValueExpr.arguments arguments⟩ binding
  | .aggregation span .. => .error (notConstant span)
  | .now span => .error (notConstant span)

/-- What is known of several values. -/
def ValueExpr.arguments : List ValueExpr → List Argument
  | [] => []
  | node :: rest => ⟨node.span, node.isConstant, node.reduce⟩ :: ValueExpr.arguments rest

end

namespace Expr

def isConstant : Expr → Bool
  | bool node => node.isConstant
  | value node => node.isConstant

/-- The constant of an expression. -/
def reduce : Expr → Found
  | bool node => do return .boolean (← node.reduce)
  | value node => node.reduce

end Expr

end EventQuery
