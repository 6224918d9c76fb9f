import EventQuery.Json.Value
import EventQuery.Number.Width

/-!
Decoding of records, enumerations and tagged unions. A record is an object, whose
unknown members are ignored and whose known members may not repeat, or a list that
gives the members in order. An optional member may be absent or `null`. A word of
an enumeration is a string, or an object with that single member and the value
`null`.
-/
namespace EventQuery.Json

abbrev Decoded (α : Type) := Except Fault α

def asText : Json → Decoded String
  | .text value => .ok value
  | _ => .error (.unexpected "string")

def asBoolean : Json → Decoded Bool
  | .boolean value => .ok value
  | _ => .error (.unexpected "boolean")

def asInteger : Json → Decoded Int
  | .integer value => .ok value
  | _ => .error (.unexpected "integer")

def asWord (width : Int → Option α) (value : Json) : Decoded α := do
  match width (← value.asInteger) with
  | some word => pure word
  | none => throw (.unexpected "integer")

def asInt64 : Json → Decoded Int64 := asWord Number.Width.int64?

def asItems : Json → Decoded (List Json)
  | .list items => .ok items
  | _ => .error (.unexpected "list")

def asListOf (decode : Json → Decoded α) (value : Json) : Decoded (List α) := do
  (← value.asItems).mapM decode

/-- The value of an enumeration that a word names. -/
def asWordOf (values : List α) (name : α → String) (value : Json) : Decoded α := do
  let word ← match value with
    | .text word => pure word
    | .object [(word, .null)] => pure word
    | _ => throw (.unexpected "word")
  match values.find? fun value => name value == word with
  | some value => pure value
  | none => throw (.unexpected word)

/-- The members of a record that were given, by name. -/
structure Record where
  members : List (String × Json)
  deriving Repr

/-- The value of a member that is given at most once. -/
def lookupOnce (members : List (String × Json)) (name : String) :
    Decoded (Option Json) :=
  match members.filter fun member => member.1 == name with
  | [] => .ok none
  | [(_, value)] => .ok (some value)
  | _ => .error (.repeated name)

/-- The record with the members `names` that a value gives. -/
def asRecord (names : List String) : Json → Decoded Record
  | .object members => do
    let given ← names.mapM fun name => do
      pure ((← lookupOnce members name).map fun value => (name, value))
    pure ⟨given.filterMap id⟩
  | .list items =>
    if items.length ≤ names.length then .ok ⟨names.zip items⟩ else .error (.unexpected "item")
  | _ => .error (.unexpected "record")

/-- A record that has no other members than `names`. -/
def asClosedRecord (names : List String) (value : Json) : Decoded Record := do
  if let .object members := value then
    if let some (name, _) := members.find? fun member => !names.contains member.1 then
      throw (.unexpected name)
  value.asRecord names

namespace Record

def get? (record : Record) (name : String) : Option Json := record.members.lookup name

def required (record : Record) (name : String) (decode : Json → Decoded α) : Decoded α :=
  match record.get? name with
  | some value => decode value
  | none => .error (.missing name)

def optional (record : Record) (name : String) (decode : Json → Decoded α) :
    Decoded (Option α) :=
  match record.get? name with
  | none => .ok none
  | some .null => .ok none
  | some value => (decode value).map some

def withDefault (record : Record) (name : String) (default : α) (decode : Json → Decoded α) :
    Decoded α :=
  match record.get? name with
  | some value => decode value
  | none => .ok default

end Record

/-- The tag of a union and the value its other members are read from. -/
def asTagged (tag : String) : Json → Decoded (String × Json)
  | .object members => do
    match ← lookupOnce members tag with
    | some (.text word) => pure (word, .object members)
    | some _ => throw (.unexpected tag)
    | none => throw (.missing tag)
  | .list (.text word :: rest) => .ok (word, .list rest)
  | _ => .error (.unexpected tag)

/-- The single member of an object. -/
def asSingle : Json → Decoded (String × Json)
  | .object [(name, value)] => .ok (name, value)
  | _ => .error (.unexpected "member")

end EventQuery.Json
