import EventQuery.Json.Record
import EventQuery.Pattern.Basic

/-!
The structured form of patterns. The member `capturing` is left out where a node
captures.
-/
namespace EventQuery.Pattern

open Json (Decoded)

def capturingMember (capturing : Bool) : List (String × Json) :=
  if capturing then [] else [("capturing", .boolean false)]

mutual

def toJson : Pattern → Json
  | step _ id capturing =>
    .object ([("kind", .text "step"), ("id", .integer id.toInt)] ++ capturingMember capturing)
  | list _ op items capturing =>
    .object ([("kind", .text "list"), ("op", .text op.name), ("items", .list (toJsons items))]
      ++ capturingMember capturing)
  | repetition _ least most child capturing =>
    let limit := match most with
      | some most => .integer most.toInt
      | none => .null
    .object ([("kind", .text "repeat"), ("min", .integer least.toInt), ("max", limit),
      ("child", child.toJson)] ++ capturingMember capturing)
  | bracket _ negating steps capturing =>
    .object ([("kind", .text "bracket_set"), ("negating", .boolean negating),
      ("steps", .list (steps.map fun id => .integer id.toInt))] ++ capturingMember capturing)

def toJsons : List Pattern → List Json
  | [] => []
  | item :: rest => item.toJson :: toJsons rest

end

/-- A pattern whose nodes nest at most `depth` deep. -/
def ofJsonWithin : Nat → Json → Decoded Pattern
  | 0, _ => .error .tooDeep
  | depth + 1, json => do
    let (kind, content) ← json.asTagged "kind"
    let capturing (record : Json.Record) := record.withDefault "capturing" true Json.asBoolean
    match kind with
    | "step" =>
      let record ← content.asRecord ["id", "capturing"]
      return step .none (← record.required "id" Json.asInt64) (← capturing record)
    | "list" =>
      let record ← content.asRecord ["op", "items", "capturing"]
      let op ← record.required "op" fun word => word.asWordOf ListOp.all ListOp.name
      let items ← record.required "items" fun items => items.asListOf (ofJsonWithin depth)
      return list .none op items (← capturing record)
    | "repeat" =>
      let record ← content.asRecord ["min", "max", "child", "capturing"]
      return repetition .none (← record.required "min" Json.asInt64)
        (← record.optional "max" Json.asInt64) (← record.required "child" (ofJsonWithin depth))
        (← capturing record)
    | "bracket_set" =>
      let record ← content.asRecord ["negating", "steps", "capturing"]
      return bracket .none (← record.required "negating" Json.asBoolean)
        (← record.required "steps" fun steps => steps.asListOf Json.asInt64) (← capturing record)
    | _ => throw (.unexpected kind)

/-- A pattern; nodes nest no deeper than JSON containers do. -/
def ofJson (json : Json) : Decoded Pattern := ofJsonWithin (Json.depthLimit + 1) json

end EventQuery.Pattern
