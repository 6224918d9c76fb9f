import EventQuery.Constant.Operations
import EventQuery.Number.Reader
import EventQuery.Text.Blank

/-!
Conversion of constants to another type. Narrowing checks the range, text is read
without the white space around it, and `NULL` converts to every type but its own.
-/
namespace EventQuery.Constant

open Number

/-- An integer converted to `target`. -/
def ofIntegral (value : Int) (target : DataType) : Except ConstantError Constant :=
  match target with
  | .boolean => .ok (boolean (value != 0))
  | .byte => orOverflow target byte (Width.int8? value)
  | .short => orOverflow target short (Width.int16? value)
  | .integer => orOverflow target integer (Width.int32? value)
  | .long => orOverflow target long (Width.int64? value)
  | .double => .ok (double (Float.ofInt value))
  | .string => .ok (string (toString value))
  | .datetime => orOverflow target datetime (Width.int64? value)
  | .null => .error (.illegalCast .long .null)

/-- Words for truth values, in any case. -/
def truthOfWord? (word : String) : Option Bool :=
  let lower := word.map Char.toLower
  if lower = "true" then some true else if lower = "false" then some false else none

/-- A text read as a constant of type `target`. -/
def ofText (text : String) (target : DataType) : Except ConstantError Constant :=
  let trimmed := Text.Blank.trimmed text
  let unreadable : ConstantError := .unreadable text target
  match target with
  | .boolean =>
    match truthOfWord? trimmed with
    | some value => .ok (boolean value)
    | none => .error unreadable
  | .double =>
    match Reader.decimal? trimmed.toList with
    | some value => .ok (double value)
    | none => .error unreadable
  | .datetime =>
    match (Calendar.Instant.parse? trimmed).bind Width.int64? with
    | some ms => .ok (datetime ms)
    | none => .error unreadable
  | .string => .ok (string text)
  | .null => .error (.illegalCast .string .null)
  | _ =>
    match (Reader.integer? trimmed.toList).bind Width.int64? with
    | some value => ofIntegral value.toInt target
    | none => .error unreadable

/-- The integer part of a number that fits 64 bits. -/
def truncated (value : Float) (target : DataType) : Except ConstantError Int :=
  match (Binary64.truncate? value).bind Width.int64? with
  | some word => .ok word.toInt
  | none => .error (.overflow target)

/-- The constant converted to `target`. -/
def cast (value : Constant) (target : DataType) : Except ConstantError Constant :=
  if target = .null then .error (.illegalCast value.type target)
  else if value.type = target then .ok value
  else
    match value with
    | null => .ok null
    | string text => ofText text target
    | boolean truth =>
      match target with
      | .datetime => .error (.illegalCast .boolean target)
      | .string => .ok (string (toString truth))
      | _ => ofIntegral (if truth then 1 else 0) target
    | double number =>
      match target with
      | .boolean => .ok (boolean (number != 0.0))
      | .string => .ok (string (Layout.write Layout.plain number))
      | _ => do ofIntegral (← truncated number target) target
    | datetime ms =>
      match target with
      | .boolean => .error (.illegalCast .datetime target)
      | .string =>
        match Calendar.Instant.text? ms.toInt with
        | some text => .ok (string text)
        | none => .error (.overflow .datetime)
      | _ => ofIntegral ms.toInt target
    | byte word => ofIntegral word.toInt target
    | short word => ofIntegral word.toInt target
    | integer word => ofIntegral word.toInt target
    | long word => ofIntegral word.toInt target

end EventQuery.Constant
