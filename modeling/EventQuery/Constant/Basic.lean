import EventQuery.Calendar.Instant
import EventQuery.DataType
import EventQuery.Number.Layout
import EventQuery.Number.Width
import EventQuery.Text.Quoted

/-!
Literal values. Integral constants keep their width, instants are milliseconds in
universal time. Operations fail with one of the causes in `ConstantError`.
-/
namespace EventQuery

inductive Constant where
  | boolean (value : Bool)
  | byte (value : Int8)
  | short (value : Int16)
  | integer (value : Int32)
  | long (value : Int64)
  | double (value : Float)
  | string (value : String)
  | null
  | datetime (ms : Int64)
  deriving DecidableEq, Repr, Inhabited

inductive ConstantError where
  | mismatch (operation : String) (left right : DataType)
  | illegalCast (source target : DataType)
  | unreadable (text : String) (target : DataType)
  | divisionByZero
  | noLocalTime (ms : Int) (zone : String)
  | overflow (type : DataType)
  deriving DecidableEq, Repr

namespace ConstantError

def message : ConstantError → String
  | mismatch operation left right =>
    s!"incompatible types {left.name} and {right.name} for `{operation}`"
  | illegalCast source target => s!"cannot cast {source.name} to {target.name}"
  | unreadable text target => s!"cannot parse '{text}' as {target.name}"
  | divisionByZero => "division by zero"
  | noLocalTime ms zone => s!"{ms} has no local time in {zone}"
  | overflow type => s!"value out of range for {type.name}"

/-- Causes that depend on particular values and not on types. -/
def isArithmetic : ConstantError → Bool
  | divisionByZero | noLocalTime .. | overflow _ => true
  | _ => false

end ConstantError

namespace Constant

def type : Constant → DataType
  | boolean _ => .boolean
  | byte _ => .byte
  | short _ => .short
  | integer _ => .integer
  | long _ => .long
  | double _ => .double
  | string _ => .string
  | null => .null
  | datetime _ => .datetime

def isNull : Constant → Bool
  | null => true
  | _ => false

/-- The payload of integral constants and of instants. -/
def integral? : Constant → Option Int
  | byte value => some value.toInt
  | short value => some value.toInt
  | integer value => some value.toInt
  | long value => some value.toInt
  | datetime ms => some ms.toInt
  | _ => none

/-- Numeric payload as a floating-point number. -/
def float? : Constant → Option Float
  | double value => some value
  | byte value => some (Float.ofInt value.toInt)
  | short value => some (Float.ofInt value.toInt)
  | integer value => some (Float.ofInt value.toInt)
  | long value => some (Float.ofInt value.toInt)
  | _ => none

def boolean? : Constant → Option Bool
  | boolean value => some value
  | _ => none

def string? : Constant → Option String
  | string value => some value
  | _ => none

/-- Truth value of a constant that is used as a predicate. -/
def isTruthy : Constant → Bool
  | boolean value => value
  | double value => value != 0.0
  | string value => !value.isEmpty
  | null => false
  | datetime _ => true
  | byte value => value != 0
  | short value => value != 0
  | integer value => value != 0
  | long value => value != 0

/-- An integer literal: `INTEGER` if it fits, `LONG` otherwise. -/
def ofInteger (value : Int64) : Constant :=
  match Number.Width.int32? value.toInt with
  | some narrow => integer narrow
  | none => long value

/-- A string literal from source text, with or without its quotes. -/
def ofLiteral (raw : String) : Constant := string (Text.Quoted.unquote raw)

/-- The displayed form of a constant. -/
def display : Constant → String
  | boolean value => toString value
  | byte value => toString value.toInt
  | short value => toString value.toInt
  | integer value => toString value.toInt
  | long value => toString value.toInt
  | double value => Number.Layout.write Number.Layout.literal value
  | string value => Text.Quoted.quote value
  | null => "NULL"
  | datetime ms => (Calendar.Instant.text? ms.toInt).getD s!"{ms.toInt}ms"

end Constant

end EventQuery
