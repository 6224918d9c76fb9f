import EventQuery.Calendar.Places
import EventQuery.Proofs.KnownValues
import EventQuery.Proofs.Points
import EventQuery.Proofs.Resolution
import EventQuery.Proofs.Validation

/-!
Optimization and evaluation points. A short circuit deletes an operand, so the point of a
predicate may rise. If the predicate is the condition of an aggregation, it may rise above
the scope, where the aggregation does not accept it. Nothing else can go wrong: values
keep their points, and what is left of a predicate stays on the chain.
-/
namespace EventQuery

open Outcome Axis

variable {fold : Bool} {expr expr' mid : Expr} {root : Path}

/-! ### Points of nodes -/

namespace Axis

/-- Whether a call is evaluated where its arguments are. -/
def combinesArguments : Function → Bool
  | .frequency => false
  | .size => false
  | .about _ => false
  | _ => true

theorem callPoint_eq_combine {span : Span} {name : String} {binding : Binding}
    {arguments : List Point} (combines : combinesArguments binding.function = true) :
    callPoint span name binding arguments = combine span arguments := by
  obtain ⟨function, state⟩ := binding
  cases function <;> first | rfl | exact absurd combines Bool.false_ne_true

theorem callPoint_eq_callPoint {span : Span} {name : String} {binding : Binding}
    {arguments arguments' : List Point} (apart : combinesArguments binding.function = false) :
    callPoint span name binding arguments = callPoint span name binding arguments' := by
  obtain ⟨function, state⟩ := binding
  cases function <;> first | exact absurd apart.symm Bool.false_ne_true | cases state <;> rfl

theorem checkTarget_eq_ok {scope : Path} {span : Span} {target : Option Path} :
    checkTarget scope span target = .ok () ↔
      ∀ path, target = some path → scope.isAncestorOf path = true := by
  cases target <;> simp [checkTarget, checkBelow]

theorem checkCondition_eq_ok {scope : Path} {span : Span} {target condition : Option Path} :
    checkCondition scope target span condition = .ok () ↔
      ∀ path, condition = some path → scope.isAncestorOf path = true ∧
        ∀ path', target = some path' → path'.areOffPath path = false := by
  rcases condition with _ | path
  · simp [checkCondition]
  · rcases target with _ | path'
    · simp [checkCondition, checkBelow]
    · cases off : path'.areOffPath path <;> simp [checkCondition, checkBelow, off]

end Axis

/-- An aggregation is evaluated on its scope, which has to accept the points of its parts. -/
theorem ValueExpr.aggregation_point_eq_ok {span : Span} {op : AggregationOp}
    {count quanta : Option ValueExpr} {target : ValueExpr} {condition : Option BoolExpr}
    {scope : Option String} {scopePath point : Option Path} :
    (aggregation span op count target condition scope quanta scopePath).point = .ok point ↔
      ∃ path, scopePath = some path ∧ ∃ aggregated, target.point = .ok aggregated ∧
        checkTarget path target.span aggregated = .ok () ∧
        (∀ node, condition = some node → ∃ met, node.point = .ok met ∧
          checkCondition path aggregated node.span met = .ok ()) ∧
        (∀ node, count = some node → ∃ found, node.point = .ok found) ∧
        (∀ node, quanta = some node → ∃ found, node.point = .ok found) ∧ some path = point := by
  rcases scopePath with _ | path
  · simp [ValueExpr.point]
  · rcases count with _ | count <;> rcases condition with _ | condition <;>
      rcases quanta with _ | quanta <;>
      simp [ValueExpr.point, Unique.exists_iff, ← and_assoc]

namespace Expr

/-- Whether a node is evaluated on the lowest of the relations of its children. -/
def combines : Expr → Bool
  | .bool (.boundary ..) => false
  | .value (.path ..) => false
  | .value (.aggregation ..) => false
  | .value (.call _ _ _ binding) => binding.any fun known => combinesArguments known.function
  | _ => true

theorem combines_of_isPlain (plain : expr.isPlain = true) : expr.combines = true := by
  cases expr with
  | bool node => cases node <;> first | rfl | cases plain
  | value node => cases node <;> first | rfl | cases plain

theorem point_eq_combine (combined : expr.combines = true) :
    expr.point = combine expr.span (expr.children.map point) := by
  cases expr with
  | bool node =>
    cases node
    case boundary => cases combined
    case inList =>
      simp [point, BoolExpr.point, children, BoolExpr.children, points_eq_map, span, BoolExpr.span,
        Function.comp_def]
    all_goals rfl
  | value node =>
    cases node
    case path => cases combined
    case aggregation => cases combined
    case call span name arguments binding =>
      rcases binding with _ | known
      · cases combined
      · rw [point, ValueExpr.point, callPoint_eq_combine combined, points_eq_map]
        simp only [children, ValueExpr.children, List.map_map]
        rfl
    all_goals rfl

private theorem onRelation_callPoint {span : Span} {name : String} {nodes : List ValueExpr}
    {arguments : List Point} {binding : Binding} (isRelation : root.isRelation = true)
    (fits : binding.Fits root nodes) (apart : combinesArguments binding.function = false) :
    OnRelation (callPoint span name binding arguments) := by
  intro path found
  obtain ⟨function, state⟩ := binding
  cases function
  case frequency =>
    cases state <;> cases found
    rfl
  case size =>
    cases state
    case target target =>
      simp only [callPoint] at found
      split at found
      case h_1 parent isParent =>
        cases found
        exact Path.isRelation_of_parent? isParent
      case h_2 => cases found
    all_goals cases found
  case about reference =>
    obtain ⟨_, _, _, known⟩ := fits.asked reference rfl
    obtain rfl : state = _ := known
    cases found
    exact isRelation
  all_goals cases apart

/-- The relation of a node that is not evaluated where its children are. -/
private theorem onRelation_apart (isRelation : root.isRelation = true)
    (resolved : expr.Resolved root) (apart : expr.combines = false) : OnRelation expr.point := by
  intro path found
  cases expr with
  | bool node =>
    cases node
    case boundary =>
      obtain ⟨known, rfl, isRelation⟩ := resolved
      cases found
      exact isRelation
    all_goals cases apart
  | value node =>
    cases node
    case path span name known =>
      rcases known with _ | known
      · cases found
      · cases found
        rfl
    case aggregation =>
      obtain ⟨scope, rfl, isRelation⟩ := resolved
      obtain ⟨scope, same, _, _, _, _, _, _, same'⟩ := ValueExpr.aggregation_point_eq_ok.1 found
      cases same
      cases same'
      exact isRelation
    case call span name arguments binding =>
      obtain ⟨binding, rfl, fits⟩ := resolved
      exact onRelation_callPoint isRelation fits apart path found
    all_goals cases apart

/-- A resolved expression is evaluated on a relation, if on anything. -/
theorem onRelation (isRelation : root.isRelation = true)
    (resolved : expr.Everywhere (Resolved root)) : OnRelation expr.point := by
  induction expr using Expr.byChildren with
  | node expr ih =>
    cases combined : expr.combines with
    | true =>
      rw [point_eq_combine combined]
      have start : OnRelation (.ok none) := fun _ found => by cases found
      exact pointIn_combineFrom (fun _ _ _ _ _ => Path.isRelation_of_lowest?) start
        (List.forall_mem_map.2 fun child member => ih child member (resolved.child member))
    | false => exact onRelation_apart isRelation resolved.here combined

/-- The arguments of a call that is not evaluated on their relations have points. -/
private theorem point_argument {binding : Binding} {nodes : List ValueExpr}
    (fits : binding.Fits root nodes) (apart : combinesArguments binding.function = false) :
    ∀ node ∈ nodes, ∃ point, node.point = .ok point := by
  obtain ⟨function, state⟩ := binding
  cases function
  case frequency =>
    obtain ⟨span, name, path, rfl⟩ := fits.described (.inl rfl)
    exact List.forall_mem_singleton.2 ⟨_, rfl⟩
  case size =>
    obtain ⟨span, name, path, rfl⟩ := fits.described (.inr rfl)
    exact List.forall_mem_singleton.2 ⟨_, rfl⟩
  case about reference =>
    obtain ⟨span, name, rfl, _⟩ := fits.asked reference rfl
    exact List.forall_mem_singleton.2 ⟨_, rfl⟩
  all_goals cases apart

private theorem point_child_apart {point : Option Path} (resolved : expr.Resolved root)
    (found : expr.point = .ok point) (apart : expr.combines = false) :
    ∀ child ∈ expr.children, ∃ point', child.point = .ok point' := by
  intro child member
  cases expr with
  | bool node =>
    cases node
    case boundary => cases member
    all_goals cases apart
  | value node =>
    cases node
    case path => cases member
    case call =>
      obtain ⟨binding, rfl, fits⟩ := resolved
      obtain ⟨node, listed, rfl⟩ := List.mem_map.1 member
      exact point_argument fits apart node listed
    case aggregation =>
      obtain ⟨_, _, aggregated, placed, _, met, counted, lasting, _⟩ :=
        ValueExpr.aggregation_point_eq_ok.1 found
      simp only [children, ValueExpr.children, List.mem_append, List.mem_cons, List.mem_map,
        Option.mem_toList] at member
      rcases member with (⟨node, isCount, rfl⟩ | rfl | ⟨node, isCondition, rfl⟩) |
        ⟨node, isQuanta, rfl⟩
      · exact counted node isCount
      · exact ⟨aggregated, placed⟩
      · obtain ⟨point', found, _⟩ := met node isCondition
        exact ⟨point', found⟩
      · exact lasting node isQuanta
    all_goals cases apart

/-- If a resolved node has a point, its children have points. -/
theorem point_child {point : Option Path} (resolved : expr.Resolved root)
    (found : expr.point = .ok point) :
    ∀ child ∈ expr.children, ∃ point', child.point = .ok point' := by
  cases combined : expr.combines with
  | true =>
    rw [point_eq_combine combined] at found
    intro child member
    obtain ⟨point', found, _⟩ := combine_rises_part (List.mem_map_of_mem member) point found
    exact ⟨point', found⟩
  | false => exact point_child_apart resolved found combined

/-! ### Conditions below their scope -/

/-- If the node is an aggregation, its condition has no relation, or one below the scope. -/
def ConditionBelow : Expr → Prop
  | .value (.aggregation _ _ _ _ (some condition) _ _ (some scope)) =>
    ∀ path, condition.point = .ok (some path) → scope.isAncestorOf path = true
  | _ => True

/-- Aggregations check their conditions, so these are fine wherever there is a point. -/
theorem conditionBelow_of_point {point : Option Path}
    (resolved : expr.Everywhere (Resolved root)) (found : expr.point = .ok point) :
    expr.Everywhere ConditionBelow := by
  induction expr using Expr.byChildren generalizing point with
  | node expr ih =>
    refine .node ?_ fun child member => ?_
    · unfold ConditionBelow
      split
      case h_1 scope =>
        intro path low
        obtain ⟨_, isScope, _, _, _, met, _⟩ := ValueExpr.aggregation_point_eq_ok.1 found
        obtain rfl := Option.some.inj isScope
        obtain ⟨_, isLow, checks⟩ := met _ rfl
        obtain rfl := Except.ok.inj (low.symm.trans isLow)
        exact (checkCondition_eq_ok.1 checks path rfl).1
      case h_2 => trivial
    · obtain ⟨point', found⟩ := point_child resolved.here found child member
      exact ih child member (resolved.child member) found

end Expr

/-! ### One node -/

/-- The point of a value stays, and that of a predicate rises at most. -/
def StaysOrRises : Expr → Expr → Prop
  | .bool node, expr' => Rises node.point expr'.point
  | .value node, expr' => Refines Eq node.point expr'.point

namespace StaysOrRises

theorem rises (moves : StaysOrRises expr expr') : Rises expr.point expr'.point := by
  cases expr with
  | bool node => exact moves
  | value node => exact .of_eq moves

private theorem points_related {R : Point → Point → Prop} {nodes nodes' : List ValueExpr}
    (all : List.Forall₂ (fun node node' => R node.point node'.point) nodes nodes') :
    List.Forall₂ R (ValueExpr.points nodes) (ValueExpr.points nodes') := by
  induction all with
  | nil => exact .nil
  | cons first _ ih => exact .cons first ih

private theorem of_bool {node : BoolExpr} (same : SameNode StaysOrRises (.bool node) mid) :
    StaysOrRises (.bool node) mid := by
  cases same
  case leaf => exact .rfl
  case connective first second => exact combine_rises (.cons first (.cons second .nil))
  case not only => exact combine_rises (.cons only .nil)
  case comparison first second => exact combine_rises (.cons first.rises (.cons second.rises .nil))
  case bounds first second third =>
    exact combine_rises (.cons first.rises (.cons second.rises (.cons third.rises .nil)))
  case nullTest only => exact combine_rises (.cons only.rises .nil)
  case inList first others =>
    exact combine_rises (.cons first.rises (points_related (others.imp fun _ _ => rises)))
  case inVector first second => exact combine_rises (.cons first.rises (.cons second.rises .nil))
  case wrapper only => exact combine_rises (.cons only.rises .nil)

private theorem of_call {span : Span} {name : String} {nodes nodes' : List ValueExpr}
    {binding : Binding} (all : List.Forall₂
      (fun node node' => StaysOrRises (.value node) (.value node')) nodes nodes') :
    StaysOrRises (.value (.call span name nodes (some binding)))
      (.value (.call span name nodes' (some binding))) := by
  show Refines Eq (callPoint span name binding (ValueExpr.points nodes))
    (callPoint span name binding (ValueExpr.points nodes'))
  cases combined : combinesArguments binding.function with
  | true =>
    rw [callPoint_eq_combine combined, callPoint_eq_combine combined]
    exact combine_keeps (points_related all)
  | false =>
    rw [callPoint_eq_callPoint combined]
    exact .rfl fun _ => rfl

/-- What is aggregated stays where it is, so only the condition can leave the scope. -/
private theorem of_aggregation {span : Span} {op : AggregationOp}
    {count count' quanta quanta' : Option ValueExpr} {target target' : ValueExpr}
    {condition condition' : Option BoolExpr} {scope : Option String} {scopePath : Option Path}
    (counted :
      Option.Rel (fun node node' => StaysOrRises (.value node) (.value node')) count count')
    (only : StaysOrRises (.value target) (.value target'))
    (met :
      Option.Rel (fun node node' => StaysOrRises (.bool node) (.bool node')) condition condition')
    (lasting :
      Option.Rel (fun node node' => StaysOrRises (.value node) (.value node')) quanta quanta')
    (below : (Expr.value (.aggregation span op count' target' condition' scope quanta'
      scopePath)).ConditionBelow) :
    StaysOrRises (.value (.aggregation span op count target condition scope quanta scopePath))
      (.value (.aggregation span op count' target' condition' scope quanta' scopePath)) := by
  intro point found
  obtain ⟨path, rfl, aggregated, placed, accepted, meets, counts, lasts, rfl⟩ :=
    ValueExpr.aggregation_point_eq_ok.1 found
  obtain ⟨_, placed', rfl⟩ := only aggregated placed
  refine ⟨_, ValueExpr.aggregation_point_eq_ok.2 ⟨path, rfl, aggregated, placed',
    checkTarget_eq_ok.2 (checkTarget_eq_ok.1 accepted), ?_, ?_, ?_, rfl⟩, rfl⟩
  · rintro node' rfl
    obtain ⟨node, rfl, rises⟩ := exists_of_rel_some met
    obtain ⟨low, found, accepted⟩ := meets node rfl
    obtain ⟨high, found', above⟩ := rises low found
    refine ⟨high, found', checkCondition_eq_ok.2 fun path' same => ?_⟩
    obtain ⟨deeper, rfl, contains⟩ := above path' same
    have onPath := (checkCondition_eq_ok.1 accepted deeper rfl).2
    exact ⟨below path' (same ▸ found'), fun path'' same' =>
      Path.areOffPath_of_isAncestorOf (onPath path'' same') contains⟩
  · rintro node' rfl
    obtain ⟨node, rfl, keeps⟩ := exists_of_rel_some counted
    obtain ⟨low, found⟩ := counts node rfl
    obtain ⟨_, found', _⟩ := keeps low found
    exact ⟨_, found'⟩
  · rintro node' rfl
    obtain ⟨node, rfl, keeps⟩ := exists_of_rel_some lasting
    obtain ⟨low, found⟩ := lasts node rfl
    obtain ⟨_, found', _⟩ := keeps low found
    exact ⟨_, found'⟩

private theorem of_value {node : ValueExpr} (same : SameNode StaysOrRises (.value node) mid)
    (below : mid.ConditionBelow) : StaysOrRises (.value node) mid := by
  cases same
  case leaf => exact .rfl fun _ => rfl
  case reference => exact .rfl fun _ => rfl
  case arithmetic first second => exact combine_keeps (.cons first (.cons second .nil))
  case unary only => exact combine_keeps (.cons only .nil)
  case cast only => exact combine_keeps (.cons only .nil)
  case conversion only => exact combine_keeps (.cons only .nil)
  case quantum only => exact combine_keeps (.cons only .nil)
  case call all => exact of_call all
  case aggregation counted only met lasting => exact of_aggregation counted only met lasting below

/-- A node stays or rises with its children, if its condition is below the scope. -/
theorem of_sameNode (same : SameNode StaysOrRises expr mid) (below : mid.ConditionBelow) :
    StaysOrRises expr mid := by
  cases expr with
  | bool node => exact of_bool same
  | value node => exact of_value same below

end StaysOrRises

/-! ### Whole expressions -/

/-- A known value has no relation. -/
theorem ValueExpr.point_of_isConstant {node : ValueExpr} (known : node.isConstant = true) :
    node.point = .ok none := by
  generalize same : Expr.value node = expr
  induction expr using Expr.byChildren generalizing node with
  | node expr ih =>
    subst same
    have combined : (Expr.value node).combines = true := by
      cases node
      case call span name arguments binding =>
        rcases binding with _ | ⟨function, state⟩
        · cases known
        · cases function
          case frequency => cases known
          case size => cases known
          case about => cases known
          all_goals rfl
      case path => cases known
      case aggregation => cases known
      all_goals rfl
    refine (Expr.point_eq_combine combined).trans (combine_none (List.forall_mem_map.2 ?_))
    intro child member
    obtain ⟨knownChild, node', rfl⟩ := ValueExpr.isConstant_child known member
    exact ih _ member knownChild rfl

namespace Optimized

private theorem staysOrRises_kept
    (children : ∀ child ∈ expr.children, ∀ child', Optimized fold child child' →
      child'.Everywhere Expr.ConditionBelow → StaysOrRises child child')
    (same : SameNode (Optimized fold) expr mid) (below : mid.Everywhere Expr.ConditionBelow) :
    StaysOrRises expr mid := by
  have guarded := same.imp fun child member => children child member
  have moved : SameNode (flip StaysOrRises) mid expr := guarded.symm.imp
    fun child' member child guarded => guarded (below.child member)
  exact .of_sameNode moved.symm below.here

/-- Optimization keeps the points of values and may raise those of predicates, if the
conditions that are left are below their scopes. -/
theorem staysOrRises (optimized : Optimized fold expr expr')
    (below : expr'.Everywhere Expr.ConditionBelow) : StaysOrRises expr expr' := by
  induction expr using Expr.byChildren generalizing expr' with
  | node expr ih =>
    obtain ⟨mid, same, folded⟩ := optimized.inversion
    cases folded with
    | kept => exact staysOrRises_kept (fun child member child' => ih child member) same below
    | predicate | absorbed =>
      cases expr with
      | bool node => exact fun _ _ => ⟨none, rfl, .none⟩
      | value node => cases same
    | value =>
      cases expr with
      | bool node => cases same
      | value node =>
        intro point found
        have known : node.isConstant = true := optimized.isConstant_of_value rfl
        obtain rfl := Except.ok.inj (found.symm.trans (ValueExpr.point_of_isConstant known))
        exact ⟨none, rfl, rfl⟩
    | second =>
      cases same with
      | leaf childless => cases childless
      | connective first second =>
        have part := ih _ (List.mem_cons_of_mem _ List.mem_cons_self) second below
        exact (combine_rises_part (List.mem_cons_of_mem _ List.mem_cons_self)).trans part
    | first =>
      cases same with
      | leaf childless => cases childless
      | connective first second =>
        have part := ih _ List.mem_cons_self first below
        exact (combine_rises_part List.mem_cons_self).trans part
    | @doubleNegation span span' operand =>
      cases same with
      | leaf childless => cases childless
      | not only =>
        have inner : (Expr.bool (.not span' operand)).Everywhere Expr.ConditionBelow :=
          .node trivial (List.forall_mem_singleton.2 below)
        have part := ih _ List.mem_cons_self only inner
        exact ((combine_rises_part List.mem_cons_self).trans part).trans
          (combine_rises_part List.mem_cons_self)

end Optimized

theorem Schema.isRelation_root {declaration : RelationDeclaration} {schema : Schema}
    (built : Schema.ofDeclaration declaration = .ok schema) : schema.root.isRelation = true := by
  obtain ⟨paths, _, built⟩ := bind_eq_ok.1 built
  obtain rfl := pure_eq_ok.1 built
  rfl

/-- A validated expression has an evaluation point after optimization, and this is its
relation or one that contains it, exactly if the conditions that are left in it are below
the scopes of their aggregations. -/
theorem exists_point_iff_conditionBelow [ZoneTable] {declaration : RelationDeclaration}
    {context : Context} {source bound : Expr} {point : Option Path}
    (built : Schema.ofDeclaration declaration = .ok context.schema)
    (binds : source.bind context = .ok bound) (valid : bound.validate = .ok (expr, point))
    (optimized : expr.optimize fold = .ok expr') :
    (∃ point', expr'.point = .ok point' ∧ ∀ path, point' = some path →
        path.isRelation = true ∧ ∃ path', point = some path' ∧ path.isAncestorOf path' = true) ↔
      expr'.Everywhere Expr.ConditionBelow := by
  have isRelation := Schema.isRelation_root built
  obtain ⟨validates, _, found⟩ := Expr.validate_eq_ok valid
  have bindsTo : Expr.BindsTo context.schema.root source bound := ⟨context, rfl, binds⟩
  have established := validates.settled bindsTo.resolved
  have resolved := Optimized.resolved optimized (established.imp fun _ both => both.1)
  constructor
  · rintro ⟨point', found', _⟩
    exact Expr.conditionBelow_of_point resolved found'
  · intro below
    obtain ⟨point', found', above⟩ := (Optimized.staysOrRises optimized below).rises point found
    exact ⟨point', found', fun path same =>
      ⟨Expr.onRelation isRelation resolved path (same ▸ found'), above path same⟩⟩

/-! ### A condition that rises above its scope -/

private def visits : RelationDeclaration :=
  .mk "user" [⟨"country", .string, false, false⟩]
    [.mk "sessions" [] [.mk "events" [⟨"name", .string, false, false⟩] []]]

private def visitSchema : Schema :=
  ⟨.relation ["user"],
    [.relation ["user"], .field ["user"] "country" ⟨.string, false, false⟩,
      .relation ["user", "sessions"], .relation ["user", "sessions", "events"],
      .field ["user", "sessions", "events"] "name" ⟨.string, false, false⟩]⟩

private def users : Context := .start visitSchema ⟨.utc, true⟩ .builtin

/-! Parts of a query, before they are bound or after. -/

private def ifBound {α : Type} (bound : Bool) (part : α) : Option α :=
  if bound then some part else none

private def country (bound : Bool) : ValueExpr :=
  .path .none "user.country" (ifBound bound (.field ["user"] "country" ⟨.string, false, false⟩))

private def event (bound : Bool) : ValueExpr :=
  .path .none "user.sessions.events.name"
    (ifBound bound (.field ["user", "sessions", "events"] "name" ⟨.string, false, false⟩))

private def german (bound : Bool) : BoolExpr :=
  .ofComparison .eq (country bound) (.ofConstant (.string "de"))

/-- `user.country == 'de' AND (user.sessions.events.name IS NULL OR TRUE)`. -/
private def germanEvent (bound : Bool) : BoolExpr :=
  .ofBinary .and (german bound) (.ofBinary .or (.ofNullTest (event bound)) (.ofTruth true))

/-- The events of a session that meet a condition. -/
private def counted (bound : Bool) (condition : BoolExpr) : Expr :=
  .value (.aggregation .none .count none (event bound) (some condition) (some "user.sessions")
    (ifBound bound Bind.defaultQuanta) (ifBound bound (.relation ["user", "sessions"])))

open Places

/-- The condition is evaluated on the events, below the scope, as long as it mentions one.
What is left of it is evaluated on the users. -/
theorem not_point_ok_counted :
    ∃ (source bound expr expr' : Expr) (scope : Path), source.bind users = .ok bound ∧
      bound.validate = .ok (expr, some scope) ∧ expr.optimize true = .ok expr' ∧
      ∀ point, expr'.point ≠ .ok point :=
  ⟨counted false (germanEvent false), counted true (germanEvent true),
    counted true (germanEvent true), counted true (german true), .relation ["user", "sessions"],
    rfl, rfl, rfl, fun _ found => by cases found⟩

/-- So its condition is not below the scope. -/
theorem not_conditionBelow_counted :
    ¬(counted true (german true)).Everywhere Expr.ConditionBelow := by
  intro below
  have built : Schema.ofDeclaration visits = .ok users.schema := rfl
  have binds : (counted false (germanEvent false)).bind users =
      .ok (counted true (germanEvent true)) := rfl
  have optimized : (counted true (germanEvent true)).optimize true =
      .ok (counted true (german true)) := rfl
  obtain ⟨_, found, _⟩ := (exists_point_iff_conditionBelow built binds rfl optimized).2 below
  cases found

end EventQuery
