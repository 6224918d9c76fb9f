import EventQuery.Expression.Json
import EventQuery.Pattern.Json
import EventQuery.Statement.Basic

/-!
The structured form of statements. Members without content are left out; the steps of
a funnel are a list in which no id repeats.
-/
namespace EventQuery

open Json (Decoded optionalMember)

/-- A list that is left out when it is empty. -/
def Json.listMember (name : String) (items : List Json) : List (String × Json) :=
  if items.isEmpty then [] else [(name, .list items)]

def Json.Record.listOrEmpty (record : Json.Record) (name : String) (decode : Json → Decoded α) :
    Decoded (List α) :=
  record.withDefault name [] fun json => json.asListOf decode

namespace Parameter

def toJson (parameter : Parameter) : Json :=
  .object ([("name", .text parameter.name), ("dtype", .text parameter.type.name)]
    ++ optionalMember "default" (parameter.default.map Constant.toJson))

def ofJson (json : Json) : Decoded Parameter := do
  let record ← json.asRecord ["name", "dtype", "default"]
  return {
    span := .none
    name := ← record.required "name" Json.asText
    type := ← record.required "dtype" DataType.ofJson
    default := ← record.optional "default" Constant.ofJson
  }

end Parameter

namespace Selection

def toJson (selection : Selection) : Json :=
  .object ([("expr", selection.expr.toJson)]
    ++ optionalMember "alias" (selection.name.map .text))

def ofJson (json : Json) : Decoded Selection := do
  let record ← json.asRecord ["expr", "alias"]
  return {
    span := .none
    expr := ← record.required "expr" Expr.ofJson
    name := ← record.optional "alias" Json.asText
  }

end Selection

namespace Query

def members (query : Query) : List (String × Json) :=
  optionalMember "name" (query.name.map .text)
    ++ Json.listMember "parameters" (query.parameters.map Parameter.toJson)
    ++ [("selections", .list (query.selections.map Selection.toJson))]
    ++ optionalMember "where" (query.condition.map BoolExpr.toJson)
    ++ Json.listMember "group_by" (query.groupBy.map ValueExpr.toJson)
    ++ optionalMember "limit" (query.limit.map ValueExpr.toJson)
    ++ Json.listMember "tags" (query.tags.map .text)

def ofJson (json : Json) : Decoded Query := do
  let record ← json.asRecord
    ["name", "parameters", "selections", "where", "group_by", "limit", "tags"]
  return {
    span := .none
    name := ← record.optional "name" Json.asText
    parameters := ← record.listOrEmpty "parameters" Parameter.ofJson
    selections := ← record.required "selections" fun json => json.asListOf Selection.ofJson
    condition := ← record.optional "where" BoolExpr.ofJson
    groupBy := ← record.listOrEmpty "group_by" ValueExpr.ofJson
    limit := ← record.optional "limit" ValueExpr.ofJson
    tags := ← record.listOrEmpty "tags" Json.asText
  }

end Query

namespace View

def members (view : View) : List (String × Json) :=
  [("name", .text view.name)]
    ++ Json.listMember "parameters" (view.parameters.map Parameter.toJson)
    ++ [("filter", view.condition.toJson)]

def ofJson (json : Json) : Decoded View := do
  let record ← json.asRecord ["name", "parameters", "filter"]
  return {
    span := .none
    name := ← record.required "name" Json.asText
    parameters := ← record.listOrEmpty "parameters" Parameter.ofJson
    condition := ← record.required "filter" BoolExpr.ofJson
  }

end View

namespace Trigger

def toJson (trigger : Trigger) : Json :=
  .object (optionalMember "timing" (trigger.timing.map ValueExpr.toJson)
    ++ optionalMember "within" (trigger.within.map ValueExpr.toJson)
    ++ optionalMember "after" (trigger.after.map ValueExpr.toJson))

def ofJson (json : Json) : Decoded Trigger := do
  let record ← json.asRecord ["timing", "within", "after"]
  return {
    span := .none
    timing := ← record.optional "timing" ValueExpr.ofJson
    within := ← record.optional "within" ValueExpr.ofJson
    after := ← record.optional "after" ValueExpr.ofJson
  }

end Trigger

namespace Step

def toJson (step : Step) : Json :=
  .object ([("id", .integer step.id.toInt), ("when", step.condition.toJson)]
    ++ optionalMember "trigger" (step.trigger.map Trigger.toJson))

def ofJson (json : Json) : Decoded Step := do
  let record ← json.asRecord ["id", "when", "trigger"]
  return {
    span := .none
    id := ← record.required "id" Json.asInt64
    condition := ← record.required "when" BoolExpr.ofJson
    trigger := ← record.optional "trigger" Trigger.ofJson
  }

end Step

namespace Funnel

def members (funnel : Funnel) : List (String × Json) :=
  [("name", .text funnel.name), ("type", .text funnel.kind.keyword)]
    ++ Json.listMember "parameters" (funnel.parameters.map Parameter.toJson)
    ++ Json.listMember "sources" (funnel.sources.map .text)
    ++ [("steps", .list (funnel.steps.map Step.toJson)), ("match", funnel.pattern.toJson)]
    ++ optionalMember "within" (funnel.within.map ValueExpr.toJson)
    ++ optionalMember "limit" (funnel.limit.map ValueExpr.toJson)
    ++ Json.listMember "tags" (funnel.tags.map .text)

/-- Steps of which no two have the same id. -/
def stepsOfJson (json : Json) : Decoded (List Step) := do
  let steps ← json.asListOf Step.ofJson
  if (steps.map Step.id).eraseDups.length = steps.length then return steps
  throw (.repeated "id")

def ofJson (json : Json) : Decoded Funnel := do
  let record ← json.asRecord
    ["name", "type", "parameters", "sources", "steps", "match", "within", "limit", "tags"]
  return {
    span := .none
    name := ← record.required "name" Json.asText
    kind := ← record.required "type" fun word =>
      word.asWordOf FunnelKind.all FunnelKind.keyword
    parameters := ← record.listOrEmpty "parameters" Parameter.ofJson
    sources := ← record.listOrEmpty "sources" Json.asText
    steps := ← record.required "steps" stepsOfJson
    pattern := ← record.required "match" Pattern.ofJson
    within := ← record.optional "within" ValueExpr.ofJson
    limit := ← record.optional "limit" ValueExpr.ofJson
    tags := ← record.listOrEmpty "tags" Json.asText
    sourcePaths := []
  }

end Funnel

namespace SegmentDefinition

def toJson (definition : SegmentDefinition) : Json :=
  .object [("name", .text definition.name), ("where", definition.condition.toJson)]

def ofJson (json : Json) : Decoded SegmentDefinition := do
  let record ← json.asRecord ["name", "where"]
  return {
    span := .none
    name := ← record.required "name" Json.asText
    condition := ← record.required "where" BoolExpr.ofJson
  }

end SegmentDefinition

namespace Segment

def members (segment : Segment) : List (String × Json) :=
  [("name", .text segment.name)]
    ++ Json.listMember "parameters" (segment.parameters.map Parameter.toJson)
    ++ Json.listMember "sources" (segment.sources.map .text)
    ++ [("definitions", .list (segment.definitions.map SegmentDefinition.toJson))]

def ofJson (json : Json) : Decoded Segment := do
  let record ← json.asRecord ["name", "parameters", "sources", "definitions"]
  return {
    span := .none
    name := ← record.required "name" Json.asText
    parameters := ← record.listOrEmpty "parameters" Parameter.ofJson
    sources := ← record.listOrEmpty "sources" Json.asText
    definitions := ← record.required "definitions" fun json =>
      json.asListOf SegmentDefinition.ofJson
    sourcePaths := []
  }

end Segment

namespace Statement

def toJson : Statement → Json
  | query it => .object (("kind", .text "query") :: it.members)
  | view it => .object (("kind", .text "view") :: it.members)
  | funnel it => .object (("kind", .text "funnel") :: it.members)
  | segment it => .object (("kind", .text "segment") :: it.members)

def ofJson (json : Json) : Decoded Statement := do
  let (kind, content) ← json.asTagged "kind"
  match kind with
  | "query" => return query (← Query.ofJson content)
  | "view" => return view (← View.ofJson content)
  | "funnel" => return funnel (← Funnel.ofJson content)
  | "segment" => return segment (← Segment.ofJson content)
  | _ => throw (.unexpected kind)

end Statement

namespace Program

def toJson (program : Program) : Json :=
  .object [("statements", .list (program.statements.map Statement.toJson))]

/-- An unbound program. -/
def ofJson (json : Json) : Decoded Program := do
  let record ← json.asRecord ["statements"]
  return ⟨.none, ← record.required "statements" fun json => json.asListOf Statement.ofJson⟩

end Program

end EventQuery
