import EventQuery.Constant.Basic
import EventQuery.Json.Record

/-!
The JSON form of constants: an object with the type and the value. Numbers that
JSON cannot write are the strings `NaN`, `Infinity` and `-Infinity`.
-/
namespace EventQuery

open Number

namespace DataType

def ofJson (json : Json) : Json.Decoded DataType := json.asWordOf all name

end DataType

namespace Constant

def numberToJson (value : Float) : Json :=
  match Binary64.kind value with
  | .nan => .text "NaN"
  | .infinite negative => .text (if negative then "-Infinity" else "Infinity")
  | .finite _ => .decimal value

def numberOfJson : Json → Json.Decoded Float
  | .integer value => .ok (Float.ofInt value)
  | .decimal value => .ok value
  | .text "NaN" => .ok Binary64.notANumber
  | .text "Infinity" => .ok Binary64.infinity
  | .text "-Infinity" => .ok (-Binary64.infinity)
  | _ => .error (.unexpected "number")

/-- The payload of a constant; `NULL` has none. -/
def payload? : Constant → Option Json
  | boolean value => some (.boolean value)
  | byte value => some (.integer value.toInt)
  | short value => some (.integer value.toInt)
  | integer value => some (.integer value.toInt)
  | long value => some (.integer value.toInt)
  | double value => some (numberToJson value)
  | string value => some (.text value)
  | null => none
  | datetime ms => some (.integer ms.toInt)

def toJson (value : Constant) : Json :=
  let tag := ("type", Json.text value.type.name)
  match value.payload? with
  | some payload => .object [tag, ("value", payload)]
  | none => .object [tag]

/-- A constant of the given type from its payload. -/
def ofPayload (type : DataType) (payload : Json) : Json.Decoded Constant :=
  match type with
  | .boolean => payload.asBoolean.map boolean
  | .byte => (payload.asWord Width.int8?).map byte
  | .short => (payload.asWord Width.int16?).map short
  | .integer => (payload.asWord Width.int32?).map integer
  | .long => payload.asInt64.map long
  | .double => (numberOfJson payload).map double
  | .string => payload.asText.map string
  | .null => if payload == .null then .ok null else .error (.unexpected "value")
  | .datetime => payload.asInt64.map datetime

def ofJson (json : Json) : Json.Decoded Constant := do
  let record ← json.asRecord ["type", "value"]
  let type ← record.required "type" fun word => do DataType.ofJson (.text (← word.asText))
  match type, record.get? "value" with
  | .null, none => pure null
  | _, some payload => ofPayload type payload
  | _, none => throw (.missing "value")

end Constant

end EventQuery
