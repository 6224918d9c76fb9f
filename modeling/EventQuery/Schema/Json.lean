import EventQuery.Constant.Json
import EventQuery.Json.Reader
import EventQuery.Schema.Basic

/-!
The JSON description of a schema: a relation with its fields and child relations.
-/
namespace EventQuery

namespace FieldDeclaration

def ofJson (json : Json) : Json.Decoded FieldDeclaration := do
  let record ← json.asRecord ["name", "type", "vector", "ordinal"]
  return {
    name := ← record.required "name" Json.asText
    type := ← record.required "type" DataType.ofJson
    isVector := ← record.withDefault "vector" false Json.asBoolean
    isOrdinal := ← record.withDefault "ordinal" false Json.asBoolean
  }

end FieldDeclaration

namespace RelationDeclaration

/-- A relation whose child relations nest at most `depth` deep. -/
def ofJsonWithin : Nat → Json → Json.Decoded RelationDeclaration
  | 0, _ => .error .tooDeep
  | depth + 1, json => do
    let record ← json.asRecord ["name", "fields", "relations"]
    let name ← record.required "name" Json.asText
    let fields ← record.withDefault "fields" [] (Json.asListOf FieldDeclaration.ofJson)
    let relations ← record.withDefault "relations" [] (Json.asListOf (ofJsonWithin depth))
    return .mk name fields relations

/-- Text nests its containers no deeper than `depthLimit`, and so do the relations. -/
def ofJson (json : Json) : Json.Decoded RelationDeclaration :=
  ofJsonWithin (Json.depthLimit + 1) json

end RelationDeclaration

namespace Schema

def ofJson (json : Json) : Except SchemaError Schema :=
  match RelationDeclaration.ofJson json with
  | .error fault => .error (.notJson fault)
  | .ok declaration => ofDeclaration declaration

def ofText (text : String) : Except SchemaError Schema :=
  match Json.ofText text with
  | .error fault => .error (.notJson fault)
  | .ok json => ofJson json

end Schema

end EventQuery
