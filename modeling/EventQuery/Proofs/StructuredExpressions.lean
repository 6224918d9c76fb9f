import EventQuery.Proofs.ExpressionTokens
import EventQuery.Proofs.JsonRecords
import EventQuery.Proofs.Tree

/-!
Expressions in their structured form. What is written of an expression without doubles is
read as the expression without spans and bindings.
-/
namespace EventQuery

open Number
open Json (Named optionalMember asWord_integer asInt64_toInt asWordOf_name asListOf_map
  asRecord_object asTagged_of_lookup depth_item_lt depth_member_lt depth_member_le)
open Json.Record (picked required_eq optional_eq optional_text)

/-! ### Constants and units -/

theorem DataType.ofJson_name (type : DataType) : ofJson (.text type.name) = .ok type :=
  asWordOf_name (by cases type <;> decide) (by decide)

namespace Constant

theorem payload?_eq_none {value : Constant} : value.payload? = none ↔ value = null := by
  cases value <;> simp [payload?]

theorem ofPayload_eq {value : Constant} {payload : Json} (exact : value.type ≠ .double)
    (known : value.payload? = some payload) : ofPayload value.type payload = .ok value := by
  cases value <;> cases known
  case byte word => exact congrArg (Except.map byte) (asWord_integer (Width.int8?_toInt word))
  case short word => exact congrArg (Except.map short) (asWord_integer (Width.int16?_toInt word))
  case integer word =>
    exact congrArg (Except.map integer) (asWord_integer (Width.int32?_toInt word))
  case long word => exact congrArg (Except.map long) (asInt64_toInt word)
  case datetime ms => exact congrArg (Except.map datetime) (asInt64_toInt ms)
  case double => exact absurd rfl exact
  all_goals rfl

theorem ofJson_toJson {value : Constant} (exact : value.type ≠ .double) :
    ofJson value.toJson = .ok value := by
  cases known : value.payload? with
  | none =>
    obtain rfl := payload?_eq_none.1 known
    rfl
  | some payload =>
    have reads := ofPayload_eq exact known
    simp only [toJson, known, ofJson]
    rw [asRecord_object (by simp)]
    simp [Json.Record.required, List.lookup_cons, Json.asText, DataType.ofJson_name, reads]

end Constant

namespace Quantum

theorem ofJson_toJson (taken : Quantum) : ofJson taken.toJson = .ok taken := by
  cases taken with
  | truncate unit =>
    have mode : (Json.text "truncate").asWordOf ["truncate", "extract"] id = .ok "truncate" := rfl
    have reads : (Json.text unit.keyword).asWordOf TimeUnit.all TimeUnit.keyword = .ok unit :=
      asWordOf_name (by cases unit <;> decide) (by decide)
    rw [toJson, ofJson, asRecord_object (by simp)]
    simp [Json.Record.required, List.lookup_cons, mode, reads]
  | extract part =>
    have mode : (Json.text "extract").asWordOf ["truncate", "extract"] id = .ok "extract" := rfl
    have reads : (Json.text part.keyword).asWordOf TimePart.all TimePart.keyword = .ok part :=
      asWordOf_name (by cases part <;> decide) (by decide)
    rw [toJson, ofJson, asRecord_object (by simp)]
    simp [Json.Record.required, List.lookup_cons, mode, reads]

end Quantum

/-! ### Nodes -/

theorem ValueExpr.toJsons_eq_map (nodes : List ValueExpr) : toJsons nodes = nodes.map toJson := by
  induction nodes with
  | nil => rfl
  | cons node rest ih => rw [toJsons, ih, List.map_cons]

theorem ValueExpr.toJson_aggregation {span : Span} {op : AggregationOp} {count : Option ValueExpr}
    {target : ValueExpr} {condition : Option BoolExpr} {scope : Option String}
    {quanta : Option ValueExpr} {scopePath : Option Path} :
    (aggregation span op count target condition scope quanta scopePath).toJson =
      .object ([("kind", .text "aggregation"), ("op", .text op.keyword)]
        ++ optionalMember "count" (count.map toJson) ++ [("target", target.toJson)]
        ++ optionalMember "where" (condition.map BoolExpr.toJson)
        ++ optionalMember "scope" (scope.map .text)
        ++ optionalMember "quanta" (quanta.map toJson)) := by
  cases count <;> cases condition <;> cases quanta <;> simp [toJson, optionalMember]

namespace Expr

/-- The structured form of the node itself, without its family. -/
def form : Expr → Json
  | bool node => node.toJson
  | value node => node.toJson

/-- A literal is no double. -/
def Exact : Expr → Prop
  | bool (.constant _ literal) => literal.type ≠ .double
  | value (.constant _ literal) => literal.type ≠ .double
  | _ => True

/-- The node is what is read of its structured form, apart from spans and bindings. -/
def ReadWithin (limit : Nat) : Expr → Prop
  | bool node => BoolExpr.ofJsonWithin limit node.toJson = .ok node.bare
  | value node => ValueExpr.ofJsonWithin limit node.toJson = .ok node.bare

/-- The form of a node is an object that starts with the kind of the node. -/
theorem exists_form (expr : Expr) :
    ∃ kind members, expr.form = .object (("kind", .text kind) :: members) := by
  cases expr with
  | bool node => cases node <;> exact ⟨_, _, rfl⟩
  | value node =>
    cases node with
    | aggregation => exact ⟨_, _, ValueExpr.toJson_aggregation⟩
    | _ => exact ⟨_, _, rfl⟩

theorem form_ne_null (expr : Expr) : expr.form ≠ .null := by
  obtain ⟨kind, members, shape⟩ := expr.exists_form
  simp [shape]

theorem depth_child_lt {expr child : Expr} (member : child ∈ expr.children) :
    child.form.depth < expr.form.depth := by
  cases expr with
  | bool node =>
    cases node <;> simp only [children, BoolExpr.children, List.mem_cons, List.not_mem_nil,
      or_false, List.mem_map] at member
    case inList span value candidates =>
      rcases member with rfl | ⟨candidate, listed, rfl⟩
      · exact depth_member_lt "value" (by simp [form])
      · have inside := depth_item_lt (List.mem_map_of_mem (f := ValueExpr.toJson) listed)
        have set := @depth_member_lt [("list", Json.list (candidates.map ValueExpr.toJson))] _ _
          List.mem_cons_self
        refine Nat.lt_trans inside (Nat.lt_trans set (depth_member_lt "set" ?_))
        simp [ValueExpr.toJsons_eq_map]
    all_goals
      rcases member with rfl | rfl | rfl <;>
        simp only [form, BoolExpr.toJson, Json.depth, Json.depthOfMembers] <;> omega
  | value node =>
    cases node <;> simp only [children, ValueExpr.children, List.mem_append, List.mem_cons,
      List.not_mem_nil, or_false, List.mem_map, Option.mem_toList] at member
    case call span name arguments binding =>
      obtain ⟨argument, listed, rfl⟩ := member
      have inside := depth_item_lt (List.mem_map_of_mem (f := ValueExpr.toJson) listed)
      refine Nat.lt_trans inside (depth_member_lt "args" ?_)
      simp [ValueExpr.toJsons_eq_map]
    case aggregation span op count target condition scope quanta scopePath =>
      rw [form, ValueExpr.toJson_aggregation]
      rcases member with (⟨count, rfl, rfl⟩ | rfl | ⟨condition, rfl, rfl⟩) | ⟨quanta, rfl, rfl⟩
      · exact depth_member_lt "count" (by simp [form, optionalMember])
      · exact depth_member_lt "target" (by simp [form])
      · exact depth_member_lt "where" (by simp [form, optionalMember])
      · exact depth_member_lt "quanta" (by simp [form, optionalMember])
    all_goals
      rcases member with rfl | rfl | rfl <;>
        simp only [form, ValueExpr.toJson, Json.depth, Json.depthOfMembers, List.cons_append,
          List.nil_append] <;> omega

end Expr

theorem BoolExpr.toJson_ne_null (node : BoolExpr) : node.toJson ≠ .null :=
  Expr.form_ne_null (.bool node)

theorem ValueExpr.toJson_ne_null (node : ValueExpr) : node.toJson ≠ .null :=
  Expr.form_ne_null (.value node)

namespace BoolExpr

theorem ofJsonWithin_succ {limit : Nat} {node : BoolExpr} (exact : (Expr.bool node).Exact)
    (each : ∀ child ∈ node.children, child.ReadWithin limit) :
    ofJsonWithin (limit + 1) node.toJson = .ok node.bare := by
  cases node with
  | constant span value =>
    have reads : Constant.ofJson value.toJson = .ok value := Constant.ofJson_toJson exact
    rw [toJson, ofJsonWithin]
    simp [Json.Record.required, List.lookup_cons, reads, bare]
  | binary span op left right =>
    have word : (Json.text op.keyword).asWordOf Connective.all Connective.keyword = .ok op :=
      asWordOf_name (by cases op <;> decide) (by decide)
    simp only [children, List.forall_mem_cons, Expr.ReadWithin] at each
    rw [toJson, ofJsonWithin]
    simp [Json.Record.required, List.lookup_cons, word, each, bare]
  | not span operand =>
    simp only [children, List.forall_mem_cons, Expr.ReadWithin] at each
    rw [toJson, ofJsonWithin]
    simp [Json.Record.required, List.lookup_cons, each, bare]
  | comparison span op left right =>
    have word : (Json.text op.name).asWordOf Relation.all Relation.name = .ok op :=
      asWordOf_name (by cases op <;> decide) (by decide)
    simp only [children, List.forall_mem_cons, Expr.ReadWithin] at each
    rw [toJson, ofJsonWithin]
    simp [Json.Record.required, List.lookup_cons, word, each, bare]
  | bounds span op value lower upper =>
    have word : (Json.text op.name).asWordOf BoundsOp.all BoundsOp.name = .ok op :=
      asWordOf_name (by cases op <;> decide) (by decide)
    simp only [children, List.forall_mem_cons, Expr.ReadWithin] at each
    rw [toJson, ofJsonWithin]
    simp [Json.Record.required, List.lookup_cons, word, each, bare]
  | nullTest span op operand =>
    have word : (Json.text op.name).asWordOf NullTestOp.all NullTestOp.name = .ok op :=
      asWordOf_name (by cases op <;> decide) (by decide)
    simp only [children, List.forall_mem_cons, Expr.ReadWithin] at each
    rw [toJson, ofJsonWithin]
    simp [Json.Record.required, List.lookup_cons, word, each, bare]
  | inList span value candidates =>
    simp only [children, List.forall_mem_cons, List.forall_mem_map, Expr.ReadWithin] at each
    obtain ⟨compared, listed⟩ := each
    have list : (Json.list (candidates.map ValueExpr.toJson)).asListOf
        (ValueExpr.ofJsonWithin limit) = .ok (candidates.map ValueExpr.bare) := asListOf_map listed
    rw [toJson, ofJsonWithin, ValueExpr.toJsons_eq_map]
    simp [Json.Record.required, List.lookup_cons, compared, list, bare, Json.asSingle,
      ValueExpr.bares_eq_map]
  | inVector span value vector =>
    simp only [children, List.forall_mem_cons, Expr.ReadWithin] at each
    rw [toJson, ofJsonWithin]
    simp [Json.Record.required, List.lookup_cons, each, bare, Json.asSingle]
  | wrapper span value =>
    simp only [children, List.forall_mem_cons, Expr.ReadWithin] at each
    rw [toJson, ofJsonWithin]
    simp [Json.Record.required, List.lookup_cons, each, bare]
  | boundary span edge relation resolved =>
    have word : (Json.text edge.keyword).asWordOf Edge.all Edge.keyword = .ok edge :=
      asWordOf_name (by cases edge <;> decide) (by decide)
    rw [toJson, ofJsonWithin]
    simp [Json.Record.required, List.lookup_cons, word, bare, Json.asText]
  | stepReference span step =>
    rw [toJson, ofJsonWithin]
    simp [Json.Record.required, List.lookup_cons, asInt64_toInt, bare]

end BoolExpr

namespace ValueExpr

variable {limit : Nat}

private theorem ofJsonWithin_quantum {span : Span} {taken : Quantum} {operand : ValueExpr}
    {zone : Option String} {timeZone : Option TimeZone}
    (reads : ofJsonWithin limit operand.toJson = .ok operand.bare) :
    ofJsonWithin (limit + 1) (quantum span taken operand zone timeZone).toJson =
      .ok (quantum span taken operand zone timeZone).bare := by
  let members := [("kind", Json.text "date_time_quantum"), ("quantum", taken.toJson),
    ("operand", operand.toJson)] ++ optionalMember "zone" (zone.map .text)
  have named : Named (["kind", "quantum", "operand"] ++ ["zone"]) members :=
    .append .given .optional
  have unique := named.unique (by decide)
  let record := picked ["quantum", "operand", "zone"] members
  have given : (Json.object members).asRecord _ = .ok record := asRecord_object unique
  have takes : record.required "quantum" Quantum.ofJson = .ok taken :=
    required_eq (by simp [record, members, List.lookup_cons]) taken.ofJson_toJson
  have operates : record.required "operand" (ofJsonWithin limit) = .ok operand.bare :=
    required_eq (by simp [record, members, List.lookup_cons]) reads
  have zoned : record.optional "zone" Json.asText = .ok zone :=
    optional_text (by simp [record, members, List.lookup_cons])
  have form : (quantum span taken operand zone timeZone).toJson = .object members := rfl
  rw [form, ofJsonWithin, asTagged_of_lookup unique rfl]
  simp [given, takes, operates, zoned, bare]

private theorem ofJsonWithin_aggregation {span : Span} {op : AggregationOp}
    {count quanta : Option ValueExpr} {target : ValueExpr} {condition : Option BoolExpr}
    {scope : Option String} {scopePath : Option Path}
    (counts : ∀ node, count = some node → ofJsonWithin limit node.toJson = .ok node.bare)
    (targets : ofJsonWithin limit target.toJson = .ok target.bare)
    (meets : ∀ node, condition = some node →
      BoolExpr.ofJsonWithin limit node.toJson = .ok node.bare)
    (lasts : ∀ node, quanta = some node → ofJsonWithin limit node.toJson = .ok node.bare) :
    ofJsonWithin (limit + 1)
        (aggregation span op count target condition scope quanta scopePath).toJson =
      .ok (aggregation span op count target condition scope quanta scopePath).bare := by
  let members := [("kind", Json.text "aggregation"), ("op", .text op.keyword)]
    ++ optionalMember "count" (count.map toJson) ++ [("target", target.toJson)]
    ++ optionalMember "where" (condition.map BoolExpr.toJson)
    ++ optionalMember "scope" (scope.map .text) ++ optionalMember "quanta" (quanta.map toJson)
  have named : Named (["kind", "op"] ++ ["count"] ++ ["target"] ++ ["where"] ++ ["scope"]
      ++ ["quanta"]) members :=
    ((((Named.given.append .optional).append .given).append .optional).append .optional).append
      .optional
  have unique := named.unique (by decide)
  let record := picked ["op", "count", "target", "where", "scope", "quanta"] members
  have given : (Json.object members).asRecord _ = .ok record := asRecord_object unique
  have word : record.required "op" (·.asWordOf AggregationOp.all AggregationOp.keyword) = .ok op :=
    required_eq (by simp [record, members, List.lookup_cons])
      (asWordOf_name (by cases op <;> decide) (by decide))
  have counted : record.optional "count" (ofJsonWithin limit) = .ok (count.map bare) :=
    optional_eq (by simp [record, members, List.lookup_cons, List.lookup_append])
      (fun node _ => node.toJson_ne_null) counts
  have target : record.required "target" (ofJsonWithin limit) = .ok target.bare :=
    required_eq (by simp [record, members, List.lookup_cons, List.lookup_append]) targets
  have met : record.optional "where" (BoolExpr.ofJsonWithin limit) =
      .ok (condition.map BoolExpr.bare) :=
    optional_eq (by simp [record, members, List.lookup_cons, List.lookup_append])
      (fun node _ => node.toJson_ne_null) meets
  have inside : record.optional "scope" Json.asText = .ok scope :=
    optional_text (by simp [record, members, List.lookup_cons, List.lookup_append])
  have lasting : record.optional "quanta" (ofJsonWithin limit) = .ok (quanta.map bare) :=
    optional_eq (by simp [record, members, List.lookup_cons, List.lookup_append])
      (fun node _ => node.toJson_ne_null) lasts
  rw [toJson_aggregation, ofJsonWithin, asTagged_of_lookup unique rfl, bare_aggregation]
  simp [given, word, counted, target, met, inside, lasting]

theorem ofJsonWithin_succ {node : ValueExpr} (exact : (Expr.value node).Exact)
    (each : ∀ child ∈ node.children, child.ReadWithin limit) :
    ofJsonWithin (limit + 1) node.toJson = .ok node.bare := by
  cases node with
  | constant span value =>
    have reads : Constant.ofJson value.toJson = .ok value := Constant.ofJson_toJson exact
    rw [toJson, ofJsonWithin]
    simp [Json.Record.required, List.lookup_cons, reads, bare]
  | path span name resolved =>
    rw [toJson, ofJsonWithin]
    simp [Json.Record.required, List.lookup_cons, bare, Json.asText]
  | parameter span name type =>
    rw [toJson, ofJsonWithin]
    simp [Json.Record.required, List.lookup_cons, bare, Json.asText]
  | binary span op left right =>
    have word : (Json.text op.name).asWordOf Arithmetic.all Arithmetic.name = .ok op :=
      asWordOf_name (by cases op <;> decide) (by decide)
    simp only [children, List.forall_mem_cons, Expr.ReadWithin] at each
    rw [toJson, ofJsonWithin]
    simp [Json.Record.required, List.lookup_cons, word, each, bare]
  | unary span sign operand =>
    have word : (Json.text sign.name).asWordOf Sign.all Sign.name = .ok sign :=
      asWordOf_name (by cases sign <;> decide) (by decide)
    simp only [children, List.forall_mem_cons, Expr.ReadWithin] at each
    rw [toJson, ofJsonWithin]
    simp [Json.Record.required, List.lookup_cons, word, each, bare]
  | cast span target operand =>
    simp only [children, List.forall_mem_cons, Expr.ReadWithin] at each
    rw [toJson, ofJsonWithin]
    simp [Json.Record.required, List.lookup_cons, target.ofJson_name, each, bare]
  | conversion span kind operand =>
    have word : (Json.text kind.keyword).asWordOf Conversion.all Conversion.keyword = .ok kind :=
      asWordOf_name (by cases kind <;> decide) (by decide)
    simp only [children, List.forall_mem_cons, Expr.ReadWithin] at each
    rw [toJson, ofJsonWithin]
    simp [Json.Record.required, List.lookup_cons, word, each, bare]
  | quantum span taken operand zone timeZone =>
    exact ofJsonWithin_quantum (each _ List.mem_cons_self)
  | call span name arguments binding =>
    simp only [children, List.forall_mem_map, Expr.ReadWithin] at each
    have list : (Json.list (arguments.map toJson)).asListOf (ofJsonWithin limit) =
        .ok (arguments.map bare) := asListOf_map each
    rw [toJson, ofJsonWithin, toJsons_eq_map]
    simp [Json.Record.required, List.lookup_cons, list, bare, Json.asText, bares_eq_map]
  | aggregation span op count target condition scope quanta scopePath =>
    simp only [children, List.forall_mem_append, List.forall_mem_cons, List.forall_mem_map,
      Option.mem_toList] at each
    obtain ⟨⟨counts, targets, meets⟩, lasts⟩ := each
    exact ofJsonWithin_aggregation counts targets meets lasts
  | now span =>
    rw [toJson, ofJsonWithin]
    simp [bare]

end ValueExpr

namespace Expr

/-- A tree is read by a reader that goes down as far as the structured form does. -/
theorem readWithin {expr : Expr} {limit : Nat} (exact : expr.Everywhere Exact)
    (fits : expr.form.depth ≤ limit) : expr.ReadWithin limit := by
  -- The reader recurs on its limit, not on the tree.
  induction limit generalizing expr with
  | zero =>
    obtain ⟨kind, members, shape⟩ := expr.exists_form
    rw [shape, Json.depth] at fits
    exact absurd fits (Nat.not_succ_le_zero _)
  | succ limit ih =>
    have each : ∀ child ∈ expr.children, child.ReadWithin limit := fun child member =>
      ih (exact.child member) (Nat.le_of_lt_succ (Nat.lt_of_lt_of_le (depth_child_lt member) fits))
    cases expr with
    | bool node => exact BoolExpr.ofJsonWithin_succ exact.here each
    | value node => exact ValueExpr.ofJsonWithin_succ exact.here each

end Expr

/-! ### Whole numbers -/

theorem Constant.whole_toJson {value : Constant} (exact : value.type ≠ .double) :
    value.toJson.Whole := by
  cases value with
  | double => exact absurd rfl exact
  | _ => simp [toJson, payload?]

theorem Quantum.whole_toJson (taken : Quantum) : taken.toJson.Whole := by
  cases taken <;> simp [toJson]

namespace Expr

theorem whole_form {expr : Expr} (exact : expr.Everywhere Exact) : expr.form.Whole := by
  induction exact with
  | @node expr here below ih =>
    cases expr with
    | bool node =>
      cases node with
      | constant span value => simp [form, BoolExpr.toJson, Constant.whole_toJson here]
      | _ =>
        simp_all [form, children, BoolExpr.children, BoolExpr.toJson, ValueExpr.toJsons_eq_map]
    | value node =>
      cases node with
      | constant span value => simp [form, ValueExpr.toJson, Constant.whole_toJson here]
      | aggregation span op count target condition scope quanta scopePath =>
        rw [form, ValueExpr.toJson_aggregation]
        simp_all [form, children, ValueExpr.children, or_imp, forall_and]
      | _ =>
        simp_all [form, children, ValueExpr.children, ValueExpr.toJson, ValueExpr.toJsons_eq_map,
          Quantum.whole_toJson]

theorem form_bare (expr : Expr) : expr.bare.form = expr.form := by
  induction expr using byChildren with
  | node expr ih =>
    cases expr with
    | bool node =>
      cases node <;>
        simp_all [form, bare, children, BoolExpr.children, BoolExpr.bare, BoolExpr.toJson,
          ValueExpr.toJsons_eq_map, ValueExpr.bares_eq_map]
    | value node =>
      cases node with
      | aggregation span op count target condition scope quanta scopePath =>
        rw [bare, ValueExpr.bare_aggregation, form, form, ValueExpr.toJson_aggregation,
          ValueExpr.toJson_aggregation]
        cases count <;> cases condition <;> cases quanta <;>
          simp_all [form, bare, children, ValueExpr.children]
      | _ =>
        simp_all [form, bare, children, ValueExpr.children, ValueExpr.bare, ValueExpr.toJson,
          ValueExpr.toJsons_eq_map, ValueExpr.bares_eq_map]

end Expr

/-! ### Whole expressions -/

theorem BoolExpr.ofJson_toJson {node : BoolExpr} (exact : (Expr.bool node).Everywhere Expr.Exact)
    (fits : node.toJson.depth ≤ Json.depthLimit) : ofJson node.toJson = .ok node.bare :=
  Expr.readWithin exact (Nat.le_succ_of_le fits)

theorem ValueExpr.ofJson_toJson {node : ValueExpr} (exact : (Expr.value node).Everywhere Expr.Exact)
    (fits : node.toJson.depth ≤ Json.depthLimit) : ofJson node.toJson = .ok node.bare :=
  Expr.readWithin exact (Nat.le_succ_of_le fits)

theorem BoolExpr.whole_toJson {node : BoolExpr} (exact : (Expr.bool node).Everywhere Expr.Exact) :
    node.toJson.Whole := Expr.whole_form exact

theorem ValueExpr.whole_toJson {node : ValueExpr}
    (exact : (Expr.value node).Everywhere Expr.Exact) : node.toJson.Whole := Expr.whole_form exact

theorem BoolExpr.toJson_bare (node : BoolExpr) : node.bare.toJson = node.toJson :=
  Expr.form_bare (.bool node)

theorem ValueExpr.toJson_bare (node : ValueExpr) : node.bare.toJson = node.toJson :=
  Expr.form_bare (.value node)

namespace Expr

theorem ofJson_toJson {expr : Expr} (exact : expr.Everywhere Exact)
    (fits : expr.toJson.depth ≤ Json.depthLimit) : ofJson expr.toJson = .ok expr.bare := by
  cases expr with
  | bool node =>
    have reads := BoolExpr.ofJson_toJson exact (depth_member_le fits "bool" _ List.mem_cons_self)
    simp [toJson, ofJson, Json.asSingle, reads, bare]
  | value node =>
    have reads := ValueExpr.ofJson_toJson exact (depth_member_le fits "value" _ List.mem_cons_self)
    simp [toJson, ofJson, Json.asSingle, reads, bare]

theorem whole_toJson {expr : Expr} (exact : expr.Everywhere Exact) : expr.toJson.Whole := by
  have whole := whole_form exact
  cases expr <;> simpa [toJson, form] using whole

theorem toJson_bare (expr : Expr) : expr.bare.toJson = expr.toJson := by
  have same := expr.form_bare
  cases expr <;> simpa [toJson, form, bare] using same

end Expr

end EventQuery
