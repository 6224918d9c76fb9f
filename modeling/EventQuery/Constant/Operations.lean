import EventQuery.Constant.Basic

/-!
Comparison and arithmetic of constants. Both operands are first widened to their
common type; `NULL` is unordered, equal only to itself, and makes every
arithmetic result `NULL`.
-/
namespace EventQuery.Constant

open Number

/-- Ordering of floating-point numbers; NaN is unordered. -/
def compareFloat (a b : Float) : Option Ordering :=
  if a < b then some .lt else if a == b then some .eq else if b < a then some .gt else none

/-- Ordering of two constants; `none` means unordered. -/
def ordering (a b : Constant) : Except ConstantError (Option Ordering) := do
  let mismatch := ConstantError.mismatch "compare" a.type b.type
  let some common := DataType.common? a.type b.type | throw mismatch
  if a.isNull || b.isNull then return none
  match a, b with
  | string a, string b => return some (compare a b)
  | boolean a, boolean b => return some (compare a b)
  | _, _ =>
    if common = .double then
      let some a := a.float? | throw mismatch
      let some b := b.float? | throw mismatch
      return compareFloat a b
    else
      let some a := a.integral? | throw mismatch
      let some b := b.integral? | throw mismatch
      return some (compare a b)

/-- Whether the relation holds between two constants. -/
def compareBy (op : Relation) (a b : Constant) : Except ConstantError Bool := do
  let mismatch := ConstantError.mismatch op.symbol a.type b.type
  let some common := DataType.common? a.type b.type | throw mismatch
  if common = .boolean ∧ op.isOrdering then throw mismatch
  if a.isNull || b.isNull then
    return match op with
      | .eq => a.isNull && b.isNull
      | .neq => !(a.isNull && b.isNull)
      | _ => false
  return op.holds (← ordering a b)

/-- A word of 64 bits, or an overflow of `type`. -/
def checked (type : DataType) (value : Int) : Except ConstantError Int64 :=
  match Width.int64? value with
  | some word => .ok word
  | none => .error (.overflow type)

/-- Integer arithmetic; division cuts toward zero. -/
def integralResult (op : Arithmetic) (a b : Int) : Except ConstantError Int :=
  match op with
  | .add => .ok (a + b)
  | .subtract => .ok (a - b)
  | .multiply => .ok (a * b)
  | .divide => if b = 0 then .error .divisionByZero else .ok (a.tdiv b)
  | .modulo => if b = 0 then .error .divisionByZero else .ok (a.tmod b)

/-- The least word divided by minus one overflows, and so does its remainder. -/
def integralArithmetic (op : Arithmetic) (type : DataType) (a b : Int) :
    Except ConstantError Int64 := do
  let result ← integralResult op a b
  if op = .modulo ∧ b = -1 then
    let _ ← checked type (a.tdiv b)
  checked type result

def floatArithmetic (op : Arithmetic) (a b : Float) : Except ConstantError Float :=
  match op with
  | .add => .ok (a + b)
  | .subtract => .ok (a - b)
  | .multiply => .ok (a * b)
  | .divide => if b == 0.0 then .error .divisionByZero else .ok (a / b)
  | .modulo => if b == 0.0 then .error .divisionByZero else .ok (Binary64.remainder a b)

/-- The result of an operator, of the type that `Arithmetic.type?` states. -/
def operate (op : Arithmetic) (a b : Constant) : Except ConstantError Constant := do
  let mismatch := ConstantError.mismatch op.symbol a.type b.type
  let some type := op.type? a.type b.type | throw mismatch
  if a.isNull || b.isNull then return null
  match type with
  | .double =>
    let some a := a.float? | throw mismatch
    let some b := b.float? | throw mismatch
    return double (← floatArithmetic op a b)
  | .long =>
    let some a := a.integral? | throw mismatch
    let some b := b.integral? | throw mismatch
    return long (← integralArithmetic op .long a b)
  | .datetime =>
    let some a := a.integral? | throw mismatch
    let some b := b.integral? | throw mismatch
    return datetime (← integralArithmetic op .datetime a b)
  | _ => throw mismatch

/-- A word found for a value, or an overflow of `type`. -/
def orOverflow (type : DataType) (make : α → Constant) :
    Option α → Except ConstantError Constant
  | some word => .ok (make word)
  | none => .error (.overflow type)

/-- The constant with the opposite sign; the least word of a width has none. -/
def negate : Constant → Except ConstantError Constant
  | byte value => orOverflow .byte byte (Width.int8? (-value.toInt))
  | short value => orOverflow .short short (Width.int16? (-value.toInt))
  | integer value => orOverflow .integer integer (Width.int32? (-value.toInt))
  | long value => orOverflow .long long (Width.int64? (-value.toInt))
  | double value => .ok (double (-value))
  | null => .ok null
  | other => .error (.mismatch "-" other.type other.type)

end EventQuery.Constant
