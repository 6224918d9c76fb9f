import EventQuery.Constant.Json
import EventQuery.Expression.Basic

/-!
The structured form of expressions. A node is an object whose member `kind` names
its kind; an expression as a whole has one member, `bool` or `value`, that names its
family. Spans and what binding has found out are not part of it.
-/
namespace EventQuery

open Json (Decoded)

/-- A member that is left out when there is no value. -/
def Json.optionalMember (name : String) (value : Option Json) : List (String × Json) :=
  match value with
  | some value => [(name, value)]
  | none => []

namespace Quantum

def toJson : Quantum → Json
  | truncate unit => .object [("mode", .text "truncate"), ("unit", .text unit.keyword)]
  | extract part => .object [("mode", .text "extract"), ("unit", .text part.keyword)]

def ofJson (json : Json) : Decoded Quantum := do
  let record ← json.asRecord ["mode", "unit"]
  let mode ← record.required "mode" fun word => word.asWordOf ["truncate", "extract"] id
  match mode with
  | "truncate" =>
    let unit ← record.required "unit" fun word => word.asWordOf TimeUnit.all TimeUnit.keyword
    return truncate unit
  | _ =>
    let part ← record.required "unit" fun word => word.asWordOf TimePart.all TimePart.keyword
    return extract part

end Quantum

/-! ### Writing -/

mutual

def BoolExpr.toJson : BoolExpr → Json
  | .constant _ value => .object [("kind", .text "constant"), ("value", value.toJson)]
  | .binary _ op left right =>
    .object [("kind", .text "binary"), ("op", .text op.keyword), ("left", left.toJson),
      ("right", right.toJson)]
  | .not _ operand => .object [("kind", .text "not"), ("operand", operand.toJson)]
  | .comparison _ op left right =>
    .object [("kind", .text "comparison"), ("op", .text op.name), ("left", left.toJson),
      ("right", right.toJson)]
  | .bounds _ op value lower upper =>
    .object [("kind", .text "bounds"), ("op", .text op.name), ("value", value.toJson),
      ("lower", lower.toJson), ("upper", upper.toJson)]
  | .nullTest _ op operand =>
    .object [("kind", .text "null_test"), ("op", .text op.name), ("operand", operand.toJson)]
  | .inList _ value candidates =>
    .object [("kind", .text "membership"), ("value", value.toJson),
      ("set", .object [("list", .list (ValueExpr.toJsons candidates))])]
  | .inVector _ value vector =>
    .object [("kind", .text "membership"), ("value", value.toJson),
      ("set", .object [("vector", vector.toJson)])]
  | .wrapper _ value => .object [("kind", .text "value_wrapper"), ("value", value.toJson)]
  | .boundary _ edge relation _ =>
    .object [("kind", .text "boundary"), ("edge", .text edge.keyword),
      ("relation", .text relation)]
  | .stepReference _ step =>
    .object [("kind", .text "step_reference"), ("step", .integer step.toInt)]

def ValueExpr.toJson : ValueExpr → Json
  | .constant _ value => .object [("kind", .text "constant"), ("value", value.toJson)]
  | .path _ name _ => .object [("kind", .text "path"), ("name", .text name)]
  | .parameter _ name _ => .object [("kind", .text "parameter"), ("name", .text name)]
  | .binary _ op left right =>
    .object [("kind", .text "binary"), ("op", .text op.name), ("left", left.toJson),
      ("right", right.toJson)]
  | .unary _ sign operand =>
    .object [("kind", .text "unary"), ("op", .text sign.name), ("operand", operand.toJson)]
  | .cast _ target operand =>
    .object [("kind", .text "cast"), ("target", .text target.name), ("operand", operand.toJson)]
  | .conversion _ kind operand =>
    .object [("kind", .text "date_time_conversion"), ("conversion", .text kind.keyword),
      ("operand", operand.toJson)]
  | .quantum _ taken operand zone _ =>
    .object ([("kind", .text "date_time_quantum"), ("quantum", taken.toJson),
      ("operand", operand.toJson)] ++ Json.optionalMember "zone" (zone.map .text))
  | .call _ name arguments _ =>
    .object [("kind", .text "function_call"), ("name", .text name),
      ("args", .list (ValueExpr.toJsons arguments))]
  | .aggregation _ op count target condition scope quanta _ =>
    let countMember := match count with
      | some count => [("count", count.toJson)]
      | none => []
    let conditionMember := match condition with
      | some condition => [("where", condition.toJson)]
      | none => []
    let quantaMember := match quanta with
      | some quanta => [("quanta", quanta.toJson)]
      | none => []
    .object ([("kind", .text "aggregation"), ("op", .text op.keyword)] ++ countMember
      ++ [("target", target.toJson)] ++ conditionMember
      ++ Json.optionalMember "scope" (scope.map .text) ++ quantaMember)
  | .now _ => .object [("kind", .text "now")]

def ValueExpr.toJsons : List ValueExpr → List Json
  | [] => []
  | node :: rest => node.toJson :: ValueExpr.toJsons rest

end

def Expr.toJson : Expr → Json
  | .bool node => .object [("bool", node.toJson)]
  | .value node => .object [("value", node.toJson)]

/-! ### Reading -/

mutual

/-- A predicate whose nodes nest at most `depth` deep. -/
def BoolExpr.ofJsonWithin : Nat → Json → Decoded BoolExpr
  | 0, _ => .error .tooDeep
  | depth + 1, json => do
    let bool := BoolExpr.ofJsonWithin depth
    let value := ValueExpr.ofJsonWithin depth
    let (kind, content) ← json.asTagged "kind"
    match kind with
    | "constant" =>
      let record ← content.asRecord ["value"]
      return .constant .none (← record.required "value" Constant.ofJson)
    | "binary" =>
      let record ← content.asRecord ["op", "left", "right"]
      let op ← record.required "op" fun word => word.asWordOf Connective.all Connective.keyword
      return .binary .none op (← record.required "left" bool) (← record.required "right" bool)
    | "not" =>
      let record ← content.asRecord ["operand"]
      return .not .none (← record.required "operand" bool)
    | "comparison" =>
      let record ← content.asRecord ["op", "left", "right"]
      let op ← record.required "op" fun word => word.asWordOf Relation.all Relation.name
      return .comparison .none op (← record.required "left" value)
        (← record.required "right" value)
    | "bounds" =>
      let record ← content.asRecord ["op", "value", "lower", "upper"]
      let op ← record.required "op" fun word => word.asWordOf BoundsOp.all BoundsOp.name
      return .bounds .none op (← record.required "value" value)
        (← record.required "lower" value) (← record.required "upper" value)
    | "null_test" =>
      let record ← content.asRecord ["op", "operand"]
      let op ← record.required "op" fun word => word.asWordOf NullTestOp.all NullTestOp.name
      return .nullTest .none op (← record.required "operand" value)
    | "membership" =>
      let record ← content.asRecord ["value", "set"]
      let member ← record.required "value" value
      let (word, set) ← record.required "set" Json.asSingle
      match word with
      | "list" => return .inList .none member (← set.asListOf value)
      | "vector" => return .inVector .none member (← value set)
      | _ => throw (.unexpected word)
    | "value_wrapper" =>
      let record ← content.asRecord ["value"]
      return .wrapper .none (← record.required "value" value)
    | "boundary" =>
      let record ← content.asRecord ["edge", "relation"]
      let edge ← record.required "edge" fun word => word.asWordOf Edge.all Edge.keyword
      return .boundary .none edge (← record.required "relation" Json.asText) none
    | "step_reference" =>
      let record ← content.asRecord ["step"]
      return .stepReference .none (← record.required "step" Json.asInt64)
    | _ => throw (.unexpected kind)

/-- A value whose nodes nest at most `depth` deep. -/
def ValueExpr.ofJsonWithin : Nat → Json → Decoded ValueExpr
  | 0, _ => .error .tooDeep
  | depth + 1, json => do
    let bool := BoolExpr.ofJsonWithin depth
    let value := ValueExpr.ofJsonWithin depth
    let (kind, content) ← json.asTagged "kind"
    match kind with
    | "constant" =>
      let record ← content.asRecord ["value"]
      return .constant .none (← record.required "value" Constant.ofJson)
    | "path" =>
      let record ← content.asRecord ["name"]
      return .path .none (← record.required "name" Json.asText) none
    | "parameter" =>
      let record ← content.asRecord ["name"]
      return .parameter .none (← record.required "name" Json.asText) none
    | "binary" =>
      let record ← content.asRecord ["op", "left", "right"]
      let op ← record.required "op" fun word => word.asWordOf Arithmetic.all Arithmetic.name
      return .binary .none op (← record.required "left" value) (← record.required "right" value)
    | "unary" =>
      let record ← content.asRecord ["op", "operand"]
      let sign ← record.required "op" fun word => word.asWordOf Sign.all Sign.name
      return .unary .none sign (← record.required "operand" value)
    | "cast" =>
      let record ← content.asRecord ["target", "operand"]
      let target ← record.required "target" DataType.ofJson
      return .cast .none target (← record.required "operand" value)
    | "date_time_conversion" =>
      let record ← content.asRecord ["conversion", "operand"]
      let kind ← record.required "conversion" fun word =>
        word.asWordOf Conversion.all Conversion.keyword
      return .conversion .none kind (← record.required "operand" value)
    | "date_time_quantum" =>
      let record ← content.asRecord ["quantum", "operand", "zone"]
      return .quantum .none (← record.required "quantum" Quantum.ofJson)
        (← record.required "operand" value) (← record.optional "zone" Json.asText) none
    | "function_call" =>
      let record ← content.asRecord ["name", "args"]
      return .call .none (← record.required "name" Json.asText)
        (← record.required "args" fun args => args.asListOf value) none
    | "aggregation" =>
      let record ← content.asRecord ["op", "count", "target", "where", "scope", "quanta"]
      let op ← record.required "op" fun word =>
        word.asWordOf AggregationOp.all AggregationOp.keyword
      return .aggregation .none op (← record.optional "count" value)
        (← record.required "target" value) (← record.optional "where" bool)
        (← record.optional "scope" Json.asText) (← record.optional "quanta" value) none
    | "now" =>
      let _ ← content.asRecord []
      return .now .none
    | _ => throw (.unexpected kind)

end

namespace BoolExpr

/-- An unbound predicate; nodes nest no deeper than JSON containers do. -/
def ofJson (json : Json) : Decoded BoolExpr := ofJsonWithin (Json.depthLimit + 1) json

end BoolExpr

namespace ValueExpr

/-- An unbound value; nodes nest no deeper than JSON containers do. -/
def ofJson (json : Json) : Decoded ValueExpr := ofJsonWithin (Json.depthLimit + 1) json

end ValueExpr

namespace Expr

/-- An unbound expression. -/
def ofJson (json : Json) : Decoded Expr := do
  let (family, node) ← json.asSingle
  match family with
  | "bool" => return .bool (← BoolExpr.ofJson node)
  | "value" => return .value (← ValueExpr.ofJson node)
  | _ => throw (.unexpected family)

end Expr

end EventQuery
