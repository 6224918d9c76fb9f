import EventQuery.Proofs.CaptureFlags
import EventQuery.Proofs.PatternTokens
import EventQuery.Proofs.Placement
import EventQuery.Proofs.StructuredExpressions

/-!
Patterns, statements and programs in their structured form. What is written of a program
without doubles, and read back from its text, is the program without spans and bindings.
-/
namespace EventQuery

open Json (Named asRecord_object asTagged_of_lookup asWordOf_name asListOf_map asInt64_toInt
  optionalMember listMember depth_item_lt depth_member_lt depth_item_le depth_member_le)
open Json.Record (picked required_eq required_text optional_eq optional_text listOrEmpty_eq
  listOrEmpty_text)

/-! ### Patterns -/

namespace Pattern

theorem toJsons_eq_map (items : List Pattern) : toJsons items = items.map toJson := by
  induction items with
  | nil => rfl
  | cons item rest ih => rw [toJsons, ih, List.map_cons]

/-- A pattern is read by a reader that goes down as far as the structured form does. -/
theorem ofJsonWithin_toJson {pattern : Pattern} {limit : Nat}
    (fits : pattern.toJson.depth ≤ limit) :
    ofJsonWithin limit pattern.toJson = .ok pattern.unspanned := by
  induction limit generalizing pattern with
  | zero => cases pattern <;> simp [toJson, Json.depth] at fits
  | succ limit ih =>
    cases pattern with
    | step span id capturing =>
      rw [toJson, ofJsonWithin]
      cases capturing <;>
        simp [capturingMember, Json.Record.required, Json.Record.withDefault, List.lookup_cons,
          Json.asBoolean, asInt64_toInt, unspanned]
    | list span op items capturing =>
      have word : (Json.text op.name).asWordOf ListOp.all ListOp.name = .ok op :=
        asWordOf_name (by cases op <;> decide) (by decide)
      rw [toJson, toJsons_eq_map] at fits
      have inside := Json.depth_object_le.1 fits ("items", .list (items.map toJson)) (by simp)
      have below : ∀ item ∈ items, ofJsonWithin limit item.toJson = .ok item.unspanned :=
        fun item listed => ih (depth_item_le inside _ (List.mem_map_of_mem listed))
      have list : (Json.list (items.map toJson)).asListOf (ofJsonWithin limit) =
          .ok (items.map unspanned) := asListOf_map below
      rw [toJson, toJsons_eq_map, ofJsonWithin]
      cases capturing <;>
        simp [capturingMember, Json.Record.required, Json.Record.withDefault, List.lookup_cons,
          Json.asBoolean, word, list, unspanned, unspannedAll_eq_map]
    | repetition span least most child capturing =>
      have reads : ofJsonWithin limit child.toJson = .ok child.unspanned := by
        cases most <;> rw [toJson] at fits <;>
          exact ih (Json.depth_object_le.1 fits ("child", child.toJson) (by simp))
      cases most <;> rw [toJson, ofJsonWithin] <;> cases capturing <;>
        simp [capturingMember, Json.Record.required, Json.Record.withDefault, Json.Record.optional,
          List.lookup_cons, Json.asBoolean, Except.map, asInt64_toInt, reads, unspanned]
    | bracket span negating steps capturing =>
      have list : (Json.list (steps.map fun id => .integer id.toInt)).asListOf Json.asInt64 =
          .ok (steps.map id) := asListOf_map fun id _ => asInt64_toInt id
      rw [toJson, ofJsonWithin]
      cases capturing <;>
        simp [capturingMember, Json.Record.required, Json.Record.withDefault, List.lookup_cons,
          Json.asBoolean, list, unspanned]

theorem ofJson_toJson {pattern : Pattern} (fits : pattern.toJson.depth ≤ Json.depthLimit) :
    ofJson pattern.toJson = .ok pattern.unspanned :=
  ofJsonWithin_toJson (Nat.le_succ_of_le fits)

theorem whole_toJson (pattern : Pattern) : pattern.toJson.Whole := by
  have flag : ∀ capturing name json, (name, json) ∈ capturingMember capturing → json.Whole := by
    rintro (_ | _) name json listed <;> simp_all [capturingMember]
  induction pattern using byParts with
  | step span id capturing => simpa [toJson, or_imp, forall_and] using flag capturing
  | list span op items capturing ih =>
    simpa [toJson, toJsons_eq_map, or_imp, forall_and] using And.intro ih (flag capturing)
  | repetition span least most child capturing ih =>
    cases most <;> simpa [toJson, or_imp, forall_and, ih] using flag capturing
  | bracket span negating steps capturing =>
    simpa [toJson, or_imp, forall_and] using flag capturing

theorem toJson_unspanned (pattern : Pattern) : pattern.unspanned.toJson = pattern.toJson := by
  induction pattern using byParts with
  | step => rfl
  | list span op items capturing ih =>
    have same : (items.map unspanned).map toJson = items.map toJson := by
      rw [List.map_map]
      exact List.map_congr_left ih
    simp only [unspanned, unspannedAll_eq_map, toJson, toJsons_eq_map, same]
  | repetition span least most child capturing ih =>
    cases most <;> simp only [unspanned, toJson, ih]
  | bracket => rfl

end Pattern

/-! ### Without spans and bindings -/

def Parameter.bare (parameter : Parameter) : Parameter := { parameter with span := .none }

def Selection.bare (selection : Selection) : Selection :=
  { selection with span := .none, expr := selection.expr.bare }

def Query.bare (query : Query) : Query :=
  { query with
    span := .none
    parameters := query.parameters.map Parameter.bare
    selections := query.selections.map Selection.bare
    condition := query.condition.map BoolExpr.bare
    groupBy := query.groupBy.map ValueExpr.bare
    limit := query.limit.map ValueExpr.bare }

def View.bare (view : View) : View :=
  { view with
    span := .none
    parameters := view.parameters.map Parameter.bare
    condition := view.condition.bare }

def Trigger.bare (trigger : Trigger) : Trigger where
  span := .none
  timing := trigger.timing.map ValueExpr.bare
  within := trigger.within.map ValueExpr.bare
  after := trigger.after.map ValueExpr.bare

def Step.bare (step : Step) : Step :=
  { step with
    span := .none
    condition := step.condition.bare
    trigger := step.trigger.map Trigger.bare }

def Funnel.bare (funnel : Funnel) : Funnel :=
  { funnel with
    span := .none
    parameters := funnel.parameters.map Parameter.bare
    steps := funnel.steps.map Step.bare
    pattern := funnel.pattern.unspanned
    within := funnel.within.map ValueExpr.bare
    limit := funnel.limit.map ValueExpr.bare
    sourcePaths := [] }

def SegmentDefinition.bare (definition : SegmentDefinition) : SegmentDefinition :=
  { definition with span := .none, condition := definition.condition.bare }

def Segment.bare (segment : Segment) : Segment :=
  { segment with
    span := .none
    parameters := segment.parameters.map Parameter.bare
    definitions := segment.definitions.map SegmentDefinition.bare
    sourcePaths := [] }

/-- The statement without spans and without what binding finds out. -/
def Statement.bare : Statement → Statement
  | query it => query it.bare
  | view it => view it.bare
  | funnel it => funnel it.bare
  | segment it => segment it.bare

def Program.bare (program : Program) : Program where
  span := .none
  statements := program.statements.map Statement.bare

/-! ### Parts of statements -/

/-- The constant by default, if there is one, is no double. -/
def Parameter.Exact (parameter : Parameter) : Prop :=
  ∀ value, parameter.default = some value → value.type ≠ .double

theorem Constant.toJson_ne_null (value : Constant) : value.toJson ≠ .null := by
  cases value <;> simp [toJson, payload?]

theorem Parameter.ofJson_toJson {parameter : Parameter} (exact : parameter.Exact) :
    ofJson parameter.toJson = .ok parameter.bare := by
  let members := [("name", Json.text parameter.name), ("dtype", .text parameter.type.name)]
    ++ optionalMember "default" (parameter.default.map Constant.toJson)
  have named : Named (["name", "dtype"] ++ ["default"]) members := .append .given .optional
  let record := picked ["name", "dtype", "default"] members
  have given : (Json.object members).asRecord _ = .ok record :=
    asRecord_object (named.unique (by decide))
  have name : record.required "name" Json.asText = .ok parameter.name :=
    required_text (by simp [record, members])
  have type : record.required "dtype" DataType.ofJson = .ok parameter.type :=
    required_eq (by simp [record, members, List.lookup_cons]) parameter.type.ofJson_name
  have default : record.optional "default" Constant.ofJson = .ok (parameter.default.map id) :=
    optional_eq (by simp [record, members, List.lookup_cons]) (fun _ _ => Constant.toJson_ne_null _)
      fun value known => Constant.ofJson_toJson (exact value known)
  rw [toJson, ofJson, given]
  simp [name, type, default, bare]

theorem Selection.ofJson_toJson {selection : Selection}
    (exact : selection.expr.Everywhere Expr.Exact)
    (fits : selection.toJson.depth ≤ Json.depthLimit) :
    ofJson selection.toJson = .ok selection.bare := by
  let members := [("expr", selection.expr.toJson)]
    ++ optionalMember "alias" (selection.name.map .text)
  have named : Named (["expr"] ++ ["alias"]) members := .append .given .optional
  let record := picked ["expr", "alias"] members
  have given : (Json.object members).asRecord _ = .ok record :=
    asRecord_object (named.unique (by decide))
  have expr : record.required "expr" Expr.ofJson = .ok selection.expr.bare :=
    required_eq (by simp [record, members])
      (Expr.ofJson_toJson exact (depth_member_le fits "expr" _ (by simp)))
  have name : record.optional "alias" Json.asText = .ok selection.name :=
    optional_text (by simp [record, members, List.lookup_cons])
  rw [toJson, ofJson, given]
  simp [expr, name, bare]

variable {record : Json.Record} {member : String}

/-- A value that may be left out. -/
theorem ValueExpr.optional_eq {part : Option ValueExpr}
    (written : record.get? member = part.map toJson)
    (exact : ∀ node, part = some node → (Expr.value node).Everywhere Expr.Exact)
    (fits : ∀ node, part = some node → node.toJson.depth ≤ Json.depthLimit) :
    record.optional member ofJson = .ok (part.map bare) :=
  Json.Record.optional_eq written (fun node _ => node.toJson_ne_null)
    fun node known => ofJson_toJson (exact node known) (fits node known)

theorem Parameter.listOrEmpty_eq {parameters : List Parameter}
    (written : record.get? member =
      if parameters.map toJson ≠ [] then some (.list (parameters.map toJson)) else none)
    (exact : ∀ parameter ∈ parameters, parameter.Exact) :
    record.listOrEmpty member ofJson = .ok (parameters.map bare) :=
  Json.Record.listOrEmpty_eq written fun parameter listed => ofJson_toJson (exact parameter listed)

theorem Trigger.ofJson_toJson {trigger : Trigger}
    (exact : ∀ node ∈ trigger.given, (Expr.value node).Everywhere Expr.Exact)
    (fits : trigger.toJson.depth ≤ Json.depthLimit) : ofJson trigger.toJson = .ok trigger.bare := by
  obtain ⟨timed, lasting, behind⟩ := Trigger.forall_given.1 exact
  let members := optionalMember "timing" (trigger.timing.map ValueExpr.toJson)
    ++ optionalMember "within" (trigger.within.map ValueExpr.toJson)
    ++ optionalMember "after" (trigger.after.map ValueExpr.toJson)
  have inside := depth_member_le fits
  have named : Named (["timing"] ++ ["within"] ++ ["after"]) members :=
    (Named.optional.append .optional).append .optional
  let record := picked ["timing", "within", "after"] members
  have given : (Json.object members).asRecord _ = .ok record :=
    asRecord_object (named.unique (by decide))
  have timing : record.optional "timing" ValueExpr.ofJson =
      .ok (trigger.timing.map ValueExpr.bare) :=
    ValueExpr.optional_eq (by simp [record, members, List.lookup_append]) timed
      fun node known => inside "timing" node.toJson (by simp [optionalMember, known])
  have within : record.optional "within" ValueExpr.ofJson =
      .ok (trigger.within.map ValueExpr.bare) :=
    ValueExpr.optional_eq (by simp [record, members, List.lookup_append]) lasting
      fun node known => inside "within" node.toJson (by simp [optionalMember, known])
  have after : record.optional "after" ValueExpr.ofJson = .ok (trigger.after.map ValueExpr.bare) :=
    ValueExpr.optional_eq (by simp [record, members, List.lookup_append]) behind
      fun node known => inside "after" node.toJson (by simp [optionalMember, known])
  rw [toJson, ofJson, given]
  simp [timing, within, after, bare]

theorem Step.ofJson_toJson {step : Step}
    (exact : ∀ expr ∈ step.expressions, expr.Everywhere Expr.Exact)
    (fits : step.toJson.depth ≤ Json.depthLimit) : ofJson step.toJson = .ok step.bare := by
  obtain ⟨met, triggered⟩ := Step.forall_expressions.1 exact
  let members := [("id", Json.integer step.id.toInt), ("when", step.condition.toJson)]
    ++ optionalMember "trigger" (step.trigger.map Trigger.toJson)
  have inside := depth_member_le fits
  have named : Named (["id", "when"] ++ ["trigger"]) members := .append .given .optional
  let record := picked ["id", "when", "trigger"] members
  have given : (Json.object members).asRecord _ = .ok record :=
    asRecord_object (named.unique (by decide))
  have id : record.required "id" Json.asInt64 = .ok step.id :=
    required_eq (by simp [record, members]) (asInt64_toInt step.id)
  have condition : record.required "when" BoolExpr.ofJson = .ok step.condition.bare :=
    required_eq (by simp [record, members, List.lookup_cons])
      (BoolExpr.ofJson_toJson met (inside "when" _ (by simp)))
  have trigger : record.optional "trigger" Trigger.ofJson = .ok (step.trigger.map Trigger.bare) :=
    optional_eq (by simp [record, members, List.lookup_cons])
      (fun _ _ => by simp [Trigger.toJson]) fun trigger known =>
        Trigger.ofJson_toJson (triggered trigger known)
          (inside "trigger" trigger.toJson (by simp [optionalMember, known]))
  rw [toJson, ofJson, given]
  simp [id, condition, trigger, bare]

theorem SegmentDefinition.ofJson_toJson {definition : SegmentDefinition}
    (exact : (Expr.bool definition.condition).Everywhere Expr.Exact)
    (fits : definition.toJson.depth ≤ Json.depthLimit) :
    ofJson definition.toJson = .ok definition.bare := by
  have condition := BoolExpr.ofJson_toJson exact (depth_member_le fits "where" _ (by simp))
  rw [toJson, ofJson, asRecord_object (by simp)]
  simp [Json.Record.required, List.lookup_cons, Json.asText, condition, bare]

private theorem eraseDups_eq {ids : List Int64} (distinct : ids.Nodup) : ids.eraseDups = ids := by
  induction ids with
  | nil => rfl
  | cons id rest ih =>
    obtain ⟨fresh, distinct⟩ := List.nodup_cons.1 distinct
    have kept : rest.filter (fun other => !other == id) = rest :=
      List.filter_eq_self.2 fun other listed => by
        simpa using fun same : other = id => fresh (same ▸ listed)
    rw [List.eraseDups_cons, kept, ih distinct]

theorem Funnel.stepsOfJson_toJson {steps : List Step} (distinct : (steps.map Step.id).Nodup)
    (reads : ∀ step ∈ steps, Step.ofJson step.toJson = .ok step.bare) :
    stepsOfJson (.list (steps.map Step.toJson)) = .ok (steps.map Step.bare) := by
  have ids : (steps.map Step.bare).map Step.id = steps.map Step.id := by
    simp [Step.bare, Function.comp_def]
  have kept : (steps.map Step.id).eraseDups = steps.map Step.id := eraseDups_eq distinct
  rw [stepsOfJson, asListOf_map reads]
  simp [ids, kept]

/-! ### Statements -/

/-- No constant is a double, neither in an expression nor by default. -/
structure Statement.Exact (statement : Statement) : Prop where
  literals : ∀ expr ∈ Bind.expressions statement, expr.Everywhere Expr.Exact
  defaults : ∀ parameter ∈ statement.parameters, parameter.Exact

theorem Query.named (query : Query) :
    Named (["name"] ++ ["parameters"] ++ ["selections"] ++ ["where"] ++ ["group_by"] ++ ["limit"]
      ++ ["tags"]) query.members :=
  (((((Named.optional.append .list).append .given).append .optional).append .list).append
    .optional).append .list

theorem View.named (view : View) :
    Named (["name"] ++ ["parameters"] ++ ["filter"]) view.members :=
  (Named.given.append .list).append .given

theorem Funnel.named (funnel : Funnel) :
    Named (["name", "type"] ++ ["parameters"] ++ ["sources"] ++ ["steps", "match"] ++ ["within"]
      ++ ["limit"] ++ ["tags"]) funnel.members :=
  (((((Named.given.append .list).append .list).append .given).append .optional).append
    .optional).append .list

theorem Segment.named (segment : Segment) :
    Named (["name"] ++ ["parameters"] ++ ["sources"] ++ ["definitions"]) segment.members :=
  ((Named.given.append .list).append .list).append .given

namespace Statement

theorem ofJson_query {query : Query} (exact : (Statement.query query).Exact)
    (fits : (Statement.query query).toJson.depth ≤ Json.depthLimit) :
    Query.ofJson (Statement.query query).toJson = .ok query.bare := by
  obtain ⟨selected, met, grouped, limited⟩ := each_query.1 (forall_expressions.1 exact.literals)
  let members := ("kind", Json.text "query") :: query.members
  have inside := depth_member_le fits
  let record := picked ["name", "parameters", "selections", "where", "group_by", "limit", "tags"]
    members
  have given : (Json.object members).asRecord _ = .ok record :=
    asRecord_object (query.named.cons.unique (by decide))
  have name : record.optional "name" Json.asText = .ok query.name :=
    optional_text (by simp [record, members, Query.members, List.lookup_cons, List.lookup_append])
  have parameters : record.listOrEmpty "parameters" Parameter.ofJson =
      .ok (query.parameters.map Parameter.bare) :=
    Parameter.listOrEmpty_eq
      (by simp [record, members, Query.members, List.lookup_cons, List.lookup_append])
      exact.defaults
  have selections : record.required "selections" (·.asListOf Selection.ofJson) =
      .ok (query.selections.map Selection.bare) :=
    required_eq (by simp [record, members, Query.members, List.lookup_cons, List.lookup_append])
      (asListOf_map fun selection listed => Selection.ofJson_toJson (selected selection listed)
        (depth_item_le (inside "selections" _ (by simp [Query.members])) _
          (List.mem_map_of_mem listed)))
  have condition : record.optional "where" BoolExpr.ofJson =
      .ok (query.condition.map BoolExpr.bare) :=
    optional_eq (by simp [record, members, Query.members, List.lookup_cons, List.lookup_append])
      (fun node _ => node.toJson_ne_null)
      fun node known => BoolExpr.ofJson_toJson (met node known)
        (inside "where" _ (by simp [Query.members, optionalMember, known]))
  have groupBy : record.listOrEmpty "group_by" ValueExpr.ofJson =
      .ok (query.groupBy.map ValueExpr.bare) :=
    listOrEmpty_eq (by simp [record, members, Query.members, List.lookup_cons, List.lookup_append])
      fun node listed => ValueExpr.ofJson_toJson (grouped node listed)
        (depth_item_le (inside "group_by" (.list (query.groupBy.map ValueExpr.toJson))
          (by simp [Query.members, listMember, List.ne_nil_of_mem listed])) _
          (List.mem_map_of_mem listed))
  have limit : record.optional "limit" ValueExpr.ofJson = .ok (query.limit.map ValueExpr.bare) :=
    ValueExpr.optional_eq
      (by simp [record, members, Query.members, List.lookup_cons, List.lookup_append]) limited
      fun node known => inside "limit" _ (by simp [Query.members, optionalMember, known])
  have tags : record.listOrEmpty "tags" Json.asText = .ok query.tags :=
    listOrEmpty_text
      (by simp [record, members, Query.members, List.lookup_cons, List.lookup_append])
  have form : (Statement.query query).toJson = .object members := rfl
  rw [form, Query.ofJson, given]
  simp [name, parameters, selections, condition, groupBy, limit, tags, Query.bare]

theorem ofJson_view {view : View} (exact : (Statement.view view).Exact)
    (fits : (Statement.view view).toJson.depth ≤ Json.depthLimit) :
    View.ofJson (Statement.view view).toJson = .ok view.bare := by
  have met := each_view.1 (forall_expressions.1 exact.literals)
  let members := ("kind", Json.text "view") :: view.members
  have inside := depth_member_le fits
  let record := picked ["name", "parameters", "filter"] members
  have given : (Json.object members).asRecord _ = .ok record :=
    asRecord_object (view.named.cons.unique (by decide))
  have name : record.required "name" Json.asText = .ok view.name :=
    required_text (by simp [record, members, View.members, List.lookup_cons])
  have parameters : record.listOrEmpty "parameters" Parameter.ofJson =
      .ok (view.parameters.map Parameter.bare) :=
    Parameter.listOrEmpty_eq
      (by simp [record, members, View.members, List.lookup_cons, List.lookup_append])
      exact.defaults
  have condition : record.required "filter" BoolExpr.ofJson = .ok view.condition.bare :=
    required_eq (by simp [record, members, View.members, List.lookup_cons, List.lookup_append])
      (BoolExpr.ofJson_toJson met (inside "filter" _ (by simp [View.members])))
  have form : (Statement.view view).toJson = .object members := rfl
  rw [form, View.ofJson, given]
  simp [name, parameters, condition, View.bare]

theorem ofJson_funnel {funnel : Funnel} (exact : (Statement.funnel funnel).Exact)
    (distinct : funnel.stepIds.Nodup)
    (fits : (Statement.funnel funnel).toJson.depth ≤ Json.depthLimit) :
    Funnel.ofJson (Statement.funnel funnel).toJson = .ok funnel.bare := by
  obtain ⟨lasting, limited, stepped⟩ := each_funnel.1 (forall_expressions.1 exact.literals)
  let members := ("kind", Json.text "funnel") :: funnel.members
  have inside := depth_member_le fits
  let record := picked
    ["name", "type", "parameters", "sources", "steps", "match", "within", "limit", "tags"] members
  have given : (Json.object members).asRecord _ = .ok record :=
    asRecord_object (funnel.named.cons.unique (by decide))
  have name : record.required "name" Json.asText = .ok funnel.name :=
    required_text (by simp [record, members, Funnel.members, List.lookup_cons])
  have kind : record.required "type" (·.asWordOf FunnelKind.all FunnelKind.keyword) =
      .ok funnel.kind :=
    required_eq (by simp [record, members, Funnel.members, List.lookup_cons])
      (asWordOf_name (by cases funnel.kind <;> decide) (by decide))
  have parameters : record.listOrEmpty "parameters" Parameter.ofJson =
      .ok (funnel.parameters.map Parameter.bare) :=
    Parameter.listOrEmpty_eq
      (by simp [record, members, Funnel.members, List.lookup_cons, List.lookup_append])
      exact.defaults
  have sources : record.listOrEmpty "sources" Json.asText = .ok funnel.sources :=
    listOrEmpty_text
      (by simp [record, members, Funnel.members, List.lookup_cons, List.lookup_append])
  have steps : record.required "steps" Funnel.stepsOfJson = .ok (funnel.steps.map Step.bare) :=
    required_eq (by simp [record, members, Funnel.members, List.lookup_cons, List.lookup_append])
      (Funnel.stepsOfJson_toJson distinct fun step listed =>
        Step.ofJson_toJson (stepped step listed)
          (depth_item_le (inside "steps" _ (by simp [Funnel.members])) _
            (List.mem_map_of_mem listed)))
  have pattern : record.required "match" Pattern.ofJson = .ok funnel.pattern.unspanned :=
    required_eq (by simp [record, members, Funnel.members, List.lookup_cons, List.lookup_append])
      (Pattern.ofJson_toJson (inside "match" _ (by simp [Funnel.members])))
  have within : record.optional "within" ValueExpr.ofJson =
      .ok (funnel.within.map ValueExpr.bare) :=
    ValueExpr.optional_eq
      (by simp [record, members, Funnel.members, List.lookup_cons, List.lookup_append]) lasting
      fun node known => inside "within" _ (by simp [Funnel.members, optionalMember, known])
  have limit : record.optional "limit" ValueExpr.ofJson = .ok (funnel.limit.map ValueExpr.bare) :=
    ValueExpr.optional_eq
      (by simp [record, members, Funnel.members, List.lookup_cons, List.lookup_append]) limited
      fun node known => inside "limit" _ (by simp [Funnel.members, optionalMember, known])
  have tags : record.listOrEmpty "tags" Json.asText = .ok funnel.tags :=
    listOrEmpty_text
      (by simp [record, members, Funnel.members, List.lookup_cons, List.lookup_append])
  have form : (Statement.funnel funnel).toJson = .object members := rfl
  rw [form, Funnel.ofJson, given]
  simp [name, kind, parameters, sources, steps, pattern, within, limit, tags, Funnel.bare]

theorem ofJson_segment {segment : Segment} (exact : (Statement.segment segment).Exact)
    (fits : (Statement.segment segment).toJson.depth ≤ Json.depthLimit) :
    Segment.ofJson (Statement.segment segment).toJson = .ok segment.bare := by
  have met := each_segment.1 (forall_expressions.1 exact.literals)
  let members := ("kind", Json.text "segment") :: segment.members
  have inside := depth_member_le fits
  let record := picked ["name", "parameters", "sources", "definitions"] members
  have given : (Json.object members).asRecord _ = .ok record :=
    asRecord_object (segment.named.cons.unique (by decide))
  have name : record.required "name" Json.asText = .ok segment.name :=
    required_text (by simp [record, members, Segment.members, List.lookup_cons])
  have parameters : record.listOrEmpty "parameters" Parameter.ofJson =
      .ok (segment.parameters.map Parameter.bare) :=
    Parameter.listOrEmpty_eq
      (by simp [record, members, Segment.members, List.lookup_cons, List.lookup_append])
      exact.defaults
  have sources : record.listOrEmpty "sources" Json.asText = .ok segment.sources :=
    listOrEmpty_text
      (by simp [record, members, Segment.members, List.lookup_cons, List.lookup_append])
  have definitions : record.required "definitions" (·.asListOf SegmentDefinition.ofJson) =
      .ok (segment.definitions.map SegmentDefinition.bare) :=
    required_eq (by simp [record, members, Segment.members, List.lookup_cons, List.lookup_append])
      (asListOf_map fun definition listed => SegmentDefinition.ofJson_toJson (met definition listed)
        (depth_item_le (inside "definitions" _ (by simp [Segment.members])) _
          (List.mem_map_of_mem listed)))
  have form : (Statement.segment segment).toJson = .object members := rfl
  rw [form, Segment.ofJson, given]
  simp [name, parameters, sources, definitions, Segment.bare]

/-- In a funnel each step has an id of its own. -/
def Keyed (statement : Statement) : Prop :=
  ∀ known, statement = funnel known → known.stepIds.Nodup

theorem ofJson_toJson {statement : Statement} (exact : statement.Exact) (keyed : statement.Keyed)
    (fits : statement.toJson.depth ≤ Json.depthLimit) :
    ofJson statement.toJson = .ok statement.bare := by
  cases statement with
  | query known =>
    have tagged : (query known).toJson.asTagged "kind" = .ok ("query", (query known).toJson) :=
      Json.asTagged_object (known.named.cons.unique (by decide))
    rw [ofJson, tagged]
    simp [ofJson_query exact fits, bare]
  | view known =>
    have tagged : (view known).toJson.asTagged "kind" = .ok ("view", (view known).toJson) :=
      Json.asTagged_object (known.named.cons.unique (by decide))
    rw [ofJson, tagged]
    simp [ofJson_view exact fits, bare]
  | funnel known =>
    have tagged : (funnel known).toJson.asTagged "kind" = .ok ("funnel", (funnel known).toJson) :=
      Json.asTagged_object (known.named.cons.unique (by decide))
    rw [ofJson, tagged]
    simp [ofJson_funnel exact (keyed known rfl) fits, bare]
  | segment known =>
    have tagged : (segment known).toJson.asTagged "kind" =
        .ok ("segment", (segment known).toJson) :=
      Json.asTagged_object (known.named.cons.unique (by decide))
    rw [ofJson, tagged]
    simp [ofJson_segment exact fits, bare]

end Statement

theorem Program.ofJson_toJson {program : Program}
    (exact : ∀ statement ∈ program.statements, statement.Exact)
    (keyed : ∀ statement ∈ program.statements, statement.Keyed)
    (fits : program.toJson.depth ≤ Json.depthLimit) : ofJson program.toJson = .ok program.bare := by
  have statements : (Json.list (program.statements.map Statement.toJson)).asListOf
      Statement.ofJson = .ok (program.statements.map Statement.bare) :=
    asListOf_map fun statement listed =>
      Statement.ofJson_toJson (exact statement listed) (keyed statement listed)
        (depth_item_le (depth_member_le fits "statements" _ List.mem_cons_self) _
          (List.mem_map_of_mem listed))
  rw [toJson, ofJson, asRecord_object (by simp)]
  simp [Json.Record.required, statements, bare]

/-! ### Whole numbers -/

theorem Parameter.whole_toJson {parameter : Parameter} (exact : parameter.Exact) :
    parameter.toJson.Whole := by
  have whole := fun value known => Constant.whole_toJson (exact value known)
  simpa [toJson, or_imp, forall_and] using whole

theorem Trigger.whole_toJson {trigger : Trigger}
    (exact : ∀ node ∈ trigger.given, (Expr.value node).Everywhere Expr.Exact) :
    trigger.toJson.Whole := by
  have whole := Trigger.forall_given.1 fun node listed => ValueExpr.whole_toJson (exact node listed)
  simpa [toJson, or_imp, forall_and, and_assoc] using whole

theorem Step.whole_toJson {step : Step}
    (exact : ∀ expr ∈ step.expressions, expr.Everywhere Expr.Exact) : step.toJson.Whole := by
  obtain ⟨met, triggered⟩ := Step.forall_expressions.1 exact
  have whole := BoolExpr.whole_toJson met
  simpa [toJson, or_imp, forall_and, whole] using fun trigger known =>
    Trigger.whole_toJson (triggered trigger known)

theorem Selection.whole_toJson {selection : Selection}
    (exact : selection.expr.Everywhere Expr.Exact) : selection.toJson.Whole := by
  simpa [toJson, or_imp, forall_and] using Expr.whole_toJson exact

theorem SegmentDefinition.whole_toJson {definition : SegmentDefinition}
    (exact : (Expr.bool definition.condition).Everywhere Expr.Exact) : definition.toJson.Whole := by
  simpa [toJson] using BoolExpr.whole_toJson exact

namespace Statement

theorem whole_toJson {statement : Statement} (exact : statement.Exact) :
    statement.toJson.Whole := by
  have literals := forall_expressions.1 exact.literals
  have defaults : ∀ parameter ∈ statement.parameters, parameter.toJson.Whole :=
    fun parameter listed => Parameter.whole_toJson (exact.defaults parameter listed)
  cases statement with
  | query known =>
    obtain ⟨selected, met, grouped, limited⟩ := each_query.1 literals
    have parts : (known.parameters ≠ [] → ∀ parameter ∈ known.parameters, parameter.toJson.Whole) ∧
        (∀ selection ∈ known.selections, selection.toJson.Whole) ∧
        (∀ node, known.condition = some node → node.toJson.Whole) ∧
        (known.groupBy ≠ [] → ∀ node ∈ known.groupBy, node.toJson.Whole) ∧
        ∀ node, known.limit = some node → node.toJson.Whole :=
      ⟨fun _ => defaults,
        fun selection listed => Selection.whole_toJson (selected selection listed),
        fun node known => BoolExpr.whole_toJson (met node known),
        fun _ node listed => ValueExpr.whole_toJson (grouped node listed),
        fun node known => ValueExpr.whole_toJson (limited node known)⟩
    simpa [toJson, Query.members, or_imp, forall_and] using parts
  | view known =>
    have parts : (known.parameters ≠ [] → ∀ parameter ∈ known.parameters, parameter.toJson.Whole) ∧
        known.condition.toJson.Whole :=
      ⟨fun _ => defaults, BoolExpr.whole_toJson (each_view.1 literals)⟩
    simpa [toJson, View.members, or_imp, forall_and] using parts
  | funnel known =>
    obtain ⟨lasting, limited, stepped⟩ := each_funnel.1 literals
    have parts : (known.parameters ≠ [] → ∀ parameter ∈ known.parameters, parameter.toJson.Whole) ∧
        (∀ step ∈ known.steps, step.toJson.Whole) ∧ known.pattern.toJson.Whole ∧
        (∀ node, known.within = some node → node.toJson.Whole) ∧
        ∀ node, known.limit = some node → node.toJson.Whole :=
      ⟨fun _ => defaults, fun step listed => Step.whole_toJson (stepped step listed),
        known.pattern.whole_toJson, fun node known => ValueExpr.whole_toJson (lasting node known),
        fun node known => ValueExpr.whole_toJson (limited node known)⟩
    simpa [toJson, Funnel.members, or_imp, forall_and] using parts
  | segment known =>
    have met := each_segment.1 literals
    have parts : (known.parameters ≠ [] → ∀ parameter ∈ known.parameters, parameter.toJson.Whole) ∧
        ∀ definition ∈ known.definitions, definition.toJson.Whole :=
      ⟨fun _ => defaults,
        fun definition listed => SegmentDefinition.whole_toJson (met definition listed)⟩
    simpa [toJson, Segment.members, or_imp, forall_and] using parts

end Statement

theorem Program.whole_toJson {program : Program}
    (exact : ∀ statement ∈ program.statements, statement.Exact) : program.toJson.Whole := by
  simpa [toJson] using fun statement listed => Statement.whole_toJson (exact statement listed)

/-! ### Spans and bindings -/

theorem Selection.toJson_bare (selection : Selection) :
    selection.bare.toJson = selection.toJson := by
  rw [toJson, bare, Expr.toJson_bare, toJson]

theorem Trigger.toJson_bare (trigger : Trigger) : trigger.bare.toJson = trigger.toJson := by
  simp [toJson, bare, Function.comp_def, ValueExpr.toJson_bare]

theorem Step.toJson_bare (step : Step) : step.bare.toJson = step.toJson := by
  simp [toJson, bare, Function.comp_def, BoolExpr.toJson_bare, Trigger.toJson_bare]

theorem SegmentDefinition.toJson_bare (definition : SegmentDefinition) :
    definition.bare.toJson = definition.toJson := by
  rw [toJson, bare, BoolExpr.toJson_bare, toJson]

theorem Statement.toJson_bare (statement : Statement) :
    statement.bare.toJson = statement.toJson := by
  have parameters (parameter : Parameter) : parameter.bare.toJson = parameter.toJson := rfl
  cases statement <;>
    simp [bare, toJson, Query.members, Query.bare, View.members, View.bare, Funnel.members,
      Funnel.bare, Segment.members, Segment.bare, Function.comp_def, parameters,
      Selection.toJson_bare, SegmentDefinition.toJson_bare, Step.toJson_bare, BoolExpr.toJson_bare,
      ValueExpr.toJson_bare, Pattern.toJson_unspanned]

theorem Program.toJson_bare (program : Program) : program.bare.toJson = program.toJson := by
  simp [toJson, bare, Function.comp_def, Statement.toJson_bare]

/-! ### Text -/

/-- What the structured form of a tree is read as is read from its text, too. -/
private theorem read_back {α : Type} {toJson : α → Json} {ofJson : Json → Json.Decoded α}
    {tree bare : α} (whole : (toJson tree).Whole) (fits : (toJson tree).depth ≤ Json.depthLimit)
    (reads : ofJson (toJson tree) = .ok bare) (same : toJson bare = toJson tree) :
    (Json.ofText (toJson tree).pretty >>= ofJson) = .ok bare ∧
      (toJson bare).pretty = (toJson tree).pretty := by
  rw [Json.ofText_pretty whole fits, same]
  exact ⟨reads, rfl⟩

/-- A tree without doubles whose structured form nests no deeper than its reader allows, and in
which no two steps of a funnel have the same id, is read back from the text of that form, apart
from spans and bindings. What is read is written like what was written before. -/
theorem ofJson_ofText_pretty :
    (∀ program : Program, (∀ statement ∈ program.statements, statement.Exact ∧ statement.Keyed) →
      program.toJson.depth ≤ Json.depthLimit →
      (Json.ofText program.toJson.pretty >>= Program.ofJson) = .ok program.bare ∧
        program.bare.toJson.pretty = program.toJson.pretty) ∧
    (∀ statement : Statement, statement.Exact ∧ statement.Keyed →
      statement.toJson.depth ≤ Json.depthLimit →
      (Json.ofText statement.toJson.pretty >>= Statement.ofJson) = .ok statement.bare ∧
        statement.bare.toJson.pretty = statement.toJson.pretty) ∧
    ∀ expr : Expr, expr.Everywhere Expr.Exact → expr.toJson.depth ≤ Json.depthLimit →
      (Json.ofText expr.toJson.pretty >>= Expr.ofJson) = .ok expr.bare ∧
        expr.bare.toJson.pretty = expr.toJson.pretty := by
  refine ⟨?_, ?_, ?_⟩
  · intro program sound fits
    have exact := fun statement listed => (sound statement listed).1
    have keyed := fun statement listed => (sound statement listed).2
    exact read_back (Program.whole_toJson exact) fits (Program.ofJson_toJson exact keyed fits)
      program.toJson_bare
  · rintro statement ⟨exact, keyed⟩ fits
    exact read_back (Statement.whole_toJson exact) fits (Statement.ofJson_toJson exact keyed fits)
      statement.toJson_bare
  · intro expr exact fits
    exact read_back (Expr.whole_toJson exact) fits (Expr.ofJson_toJson exact fits)
      expr.toJson_bare

theorem ofJson_ofText_pretty_funnel :
    (Json.ofText (Program.toJson ⟨⟨0, 60⟩, [.funnel ⟨⟨0, 60⟩, "signup", .conversion, [], ["user"],
        [⟨⟨20, 28⟩, 1, .constant ⟨24, 28⟩ (.boolean true), some ⟨⟨28, 28⟩, none, none, none⟩⟩,
          ⟨⟨30, 38⟩, 2, .stepReference ⟨34, 38⟩ 1, none⟩],
        .repetition ⟨46, 50⟩ 1 none (.bracket ⟨46, 49⟩ true [1] true) false, none, none, [],
        []⟩]⟩).pretty >>= Program.ofJson) =
      .ok ⟨.none, [.funnel ⟨.none, "signup", .conversion, [], ["user"],
        [⟨.none, 1, .constant .none (.boolean true), some ⟨.none, none, none, none⟩⟩,
          ⟨.none, 2, .stepReference .none 1, none⟩],
        .repetition .none 1 none (.bracket .none true [1] true) false, none, none, [], []⟩]⟩ ∧
    (Json.ofText (Statement.toJson (.view ⟨⟨0, 24⟩, "all", [],
        .constant ⟨17, 21⟩ (.boolean true)⟩)).pretty >>= Statement.ofJson) =
      .ok (.view ⟨.none, "all", [], .constant .none (.boolean true)⟩) ∧
    (Json.ofText (Expr.toJson (.value (.path ⟨0, 3⟩ "age" none))).pretty >>= Expr.ofJson) =
      .ok (.value (.path .none "age" none)) := by
  refine ⟨(ofJson_ofText_pretty.1 _ ?_ ?_).1, (ofJson_ofText_pretty.2.1 _ ?_ ?_).1,
    (ofJson_ofText_pretty.2.2 _ ?_ ?_).1⟩
  · have truth : (Expr.bool (.constant ⟨24, 28⟩ (.boolean true))).Everywhere Expr.Exact :=
      .node (by simp [Expr.Exact, Constant.type]) (List.forall_mem_nil _)
    have reference : (Expr.bool (.stepReference ⟨34, 38⟩ 1)).Everywhere Expr.Exact :=
      .node trivial (List.forall_mem_nil _)
    refine List.forall_mem_singleton.2 ⟨⟨?_, List.forall_mem_nil _⟩, ?_⟩
    · exact List.forall_mem_cons.2 ⟨truth, List.forall_mem_singleton.2 reference⟩
    · rintro _ ⟨⟩
      decide
  · decide +kernel
  · refine ⟨⟨List.forall_mem_singleton.2 (.node ?_ (List.forall_mem_nil _)),
      List.forall_mem_nil _⟩, nofun⟩
    simp [Expr.Exact, Constant.type]
  · decide +kernel
  · exact .node trivial (List.forall_mem_nil _)
  · decide +kernel

end EventQuery
