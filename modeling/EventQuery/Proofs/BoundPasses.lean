import EventQuery.Proofs.NeverUnresolved

/-!
Validation and optimization of a bound expression never fail over a name without meaning.
-/
namespace EventQuery

open Outcome

/-- The validated expression, whatever its type and its point. -/
def Expr.validated [ZoneTable] : Expr → Except Diagnostic Expr
  | .bool node => .bool <$> Stopped.forget node.validate
  | .value node => .value <$> Stopped.forget node.validate

theorem Expr.validated_eq_ok [ZoneTable] {source expr : Expr} :
    source.validated = .ok expr ↔ ValidatesTo source expr := by
  cases source with
  | bool node => simp [validated, ValidatesTo.exists_bool]
  | value node => simp [validated, ValidatesTo.exists_value]

namespace NeverUnresolved

variable {α β : Type} {span : Span} {name : String} {context : Context} {expr : Expr}

/-! ### Validation -/

section Validate

open Stopped (forget within check)

variable {τ : Type} {what : String} {least : Int} {node : ValueExpr} {arguments : List ValueExpr}

theorem forget_bind {result : Except (Stopped τ) α} {next : α → Except (Stopped τ) β}
    (first : NeverUnresolved (forget result))
    (rest : ∀ value, result = .ok value → NeverUnresolved (forget (next value))) :
    NeverUnresolved (forget (result >>= next)) := by
  cases result with
  | ok value => exact rest value rfl
  | error cause => exact error_iff.2 (error_iff.1 first)

@[simp] theorem forget_throw_iff {cause : Stopped τ} :
    NeverUnresolved (forget (throw cause : Except (Stopped τ) α)) ↔
      cause.diagnostic.kind ≠ .unresolvedReference :=
  error_iff

@[simp] theorem forget_throw_bind_iff {cause : Stopped τ}
    {next : α → Except (Stopped τ) β} :
    NeverUnresolved (forget (throw cause >>= next)) ↔
      cause.diagnostic.kind ≠ .unresolvedReference :=
  error_iff

@[simp] theorem forget_within_iff {result : Except (Stopped α) β} {place : α → τ} :
    NeverUnresolved (forget (within result place)) ↔ NeverUnresolved (forget result) := by
  cases result <;> rfl

@[simp] theorem forget_check_iff {result : Except Diagnostic α} {tree : τ} :
    NeverUnresolved (forget (check tree result)) ↔ NeverUnresolved result := by
  cases result <;> rfl

@[simp] theorem forget_map_iff {result : Except (Stopped τ) α} {change : α → β} :
    NeverUnresolved (forget (change <$> result)) ↔ NeverUnresolved (forget result) := by
  cases result with
  | ok value => exact iff_of_true ok ok
  | error cause => exact error_iff.trans error_iff.symm

theorem requiredConstant (reduces : NeverUnresolved node.reduce) :
    NeverUnresolved (Validate.requiredConstant node what) := by
  unfold Validate.requiredConstant
  split
  · exact reduces
  · simp

theorem requiredCount {value : Constant} :
    NeverUnresolved (Validate.requiredCount span value what least) := by
  unfold Validate.requiredCount
  dsimp only
  split
  · split <;> simp
  · simp

theorem foldCount (reduces : NeverUnresolved node.reduce) :
    NeverUnresolved (forget (Validate.foldCount node what least)) :=
  forget_bind (forget_check_iff.2 (requiredConstant reduces)) fun _ _ =>
    forget_bind (forget_check_iff.2 requiredCount) fun _ _ => ok

theorem foldDuration (reduces : NeverUnresolved node.reduce) :
    NeverUnresolved (forget (Validate.foldDuration node what)) :=
  forget_bind (foldCount reduces) fun _ _ => ok

theorem timeZone [ZoneTable] : NeverUnresolved (EventQuery.timeZone name span) := by
  unfold EventQuery.timeZone
  split <;> simp

theorem checkTop {op : AggregationOp} {hasCount : Bool} :
    NeverUnresolved (Validate.checkTop span op hasCount) := by
  unfold Validate.checkTop
  split
  · simp
  · split <;> simp

theorem checkAscending {index : Nat} {boundaries : List Constant} :
    NeverUnresolved (Validate.checkAscending span arguments index boundaries) := by
  induction boundaries generalizing index with
  | nil => exact ok
  | cons first rest ih =>
    cases rest with
    | nil => exact ok
    | cons second rest =>
      refine orFault.bind fun _ _ => ?_
      split
      · exact ih
      · simp

private theorem reducedCall (each : ∀ node ∈ arguments, NeverUnresolved node.reduce) :
    ∀ argument ∈ (Validate.reduceCall span name arguments).arguments,
      NeverUnresolved argument.value := NeverUnresolved.arguments each

theorem explicitZone [ZoneTable] (each : ∀ node ∈ arguments, NeverUnresolved node.reduce) :
    NeverUnresolved
      (Validate.explicitZone (Validate.reduceCall span name arguments) arguments) := by
  unfold Validate.explicitZone
  split
  · refine (constant (by simp [Validate.reduceCall, Reduce.arguments_eq_map])
      (reducedCall each)).bind fun _ _ => ?_
    split
    · exact timeZone.bind fun _ _ => ok
    · simp
  · exact ok

theorem checkFormat (reduces : NeverUnresolved node.reduce) :
    NeverUnresolved (Validate.checkFormat node) := by
  unfold Validate.checkFormat
  split
  · refine reduces.bind fun _ _ => ?_
    split
    · split <;> simp
    · exact ok
  · exact ok

theorem checkCall [ZoneTable] {binding : Binding}
    (each : ∀ node ∈ arguments, NeverUnresolved node.reduce) :
    NeverUnresolved (forget (Validate.checkCall span name arguments binding)) := by
  unfold Validate.checkCall
  dsimp only
  split
  · exact forget_bind (forget_check_iff.2 (constantTail (reducedCall each))) fun _ _ => ok
  · refine forget_bind (forget_check_iff.2 ?_) fun _ _ => ok
    exact (constantTail (reducedCall each)).bind fun _ _ => checkAscending
  · refine forget_bind (forget_check_iff.2 (explicitZone each)) fun zone _ => ?_
    split
    · rename_i format given
      refine forget_bind (forget_check_iff.2 (checkFormat (each format ?_))) fun _ _ => ok
      exact List.mem_of_getElem? given
    · exact ok
  · exact ok

@[simp] theorem validated_bool_iff [ZoneTable] {node : BoolExpr} :
    NeverUnresolved (Expr.bool node).validated ↔ NeverUnresolved (forget node.validate) :=
  map_iff

@[simp] theorem validated_value_iff [ZoneTable] :
    NeverUnresolved (Expr.value node).validated ↔ NeverUnresolved (forget node.validate) :=
  map_iff

/-- Validation of several values; each is validated without lacking a name. -/
theorem validateAll [ZoneTable] {nodes : List ValueExpr}
    (each : ∀ node ∈ nodes, NeverUnresolved (forget node.validate)) :
    NeverUnresolved (forget (ValueExpr.validateAll nodes)) := by
  induction nodes with
  | nil => exact ok
  | cons node rest ih =>
    obtain ⟨first, others⟩ := List.forall_mem_cons.1 each
    exact forget_bind (forget_within_iff.2 first) fun _ _ =>
      forget_bind (forget_within_iff.2 (ih others)) fun _ _ => ok

private theorem boolValidate [ZoneTable] {node : BoolExpr}
    (below : ∀ child ∈ node.children, NeverUnresolved child.validated) :
    NeverUnresolved (forget node.validate) := by
  cases node <;>
    simp only [BoolExpr.children, List.forall_mem_cons, List.forall_mem_map, validated_bool_iff,
      validated_value_iff, List.not_mem_nil, false_implies, implies_true, and_true] at below
  case constant => exact ok
  case boundary => exact ok
  case stepReference => exact ok
  case inList =>
    exact forget_bind (forget_within_iff.2 below.1) fun _ _ =>
      forget_bind (forget_within_iff.2 (validateAll below.2)) fun _ _ => ok
  case bounds =>
    exact forget_bind (forget_within_iff.2 below.1) fun _ _ =>
      forget_bind (forget_within_iff.2 below.2.1) fun _ _ =>
        forget_bind (forget_within_iff.2 below.2.2) fun _ _ => ok
  case not => exact forget_bind (forget_within_iff.2 below) fun _ _ => ok
  case nullTest => exact forget_bind (forget_within_iff.2 below) fun _ _ => ok
  case wrapper => exact forget_bind (forget_within_iff.2 below) fun _ _ => ok
  all_goals
    exact forget_bind (forget_within_iff.2 below.1) fun _ _ =>
      forget_bind (forget_within_iff.2 below.2) fun _ _ => ok

private theorem validCount [ZoneTable] (bound : (Expr.value node).Everywhere (Expr.Bound context))
    (validates : NeverUnresolved (forget node.validate)) :
    NeverUnresolved (Validate.validCount node what) := by
  refine validates.bind fun valid found => (foldCount ?_).bind fun _ _ => ok
  have validates := Expr.ValidatesTo.value (Stopped.forget_eq_ok.1 found)
  exact reduce_value_iff.1 (reduce ((validates.everywhere_bound bound).imp fun _ both => both.1))

private theorem valueValidate [ZoneTable]
    (bound : (Expr.value node).Everywhere (Expr.Bound context))
    (below : ∀ child ∈ node.children, NeverUnresolved child.validated) :
    NeverUnresolved (forget node.validate) := by
  have childBound (child : Expr) (member : child ∈ node.children) :
      child.Everywhere (Expr.Bound context) := bound.child member
  cases node <;>
    simp only [ValueExpr.children, List.forall_mem_append, List.forall_mem_cons,
      List.forall_mem_map, validated_bool_iff, validated_value_iff, List.not_mem_nil,
      false_implies, implies_true, and_true, Option.mem_toList] at below
  case constant => exact ok
  case path => exact ok
  case parameter => exact ok
  case now => exact ok
  case quantum span taken operand zone known =>
    refine forget_bind (forget_within_iff.2 below) fun _ _ => ?_
    cases zone with
    | none => exact ok
    | some zone => exact forget_bind (forget_check_iff.2 timeZone) fun _ _ => ok
  case call span name arguments binding =>
    obtain ⟨binding, rfl, -⟩ := bound.here
    simp only [ValueExpr.validate]
    split
    · refine forget_bind (forget_within_iff.2 (validateAll below)) fun arguments' all => ?_
      refine forget_bind (checkCall fun node' listed => ?_) fun _ _ => ok
      have all := Validate.validateAll_eq_ok.1 (Stopped.within_eq_ok.1 all)
      obtain ⟨node, listed, found⟩ := exists_of_mem_right all listed
      have bound := childBound _ (List.mem_map_of_mem listed)
      exact reduce_value_iff.1 (reduce
        (((Expr.ValidatesTo.value found).everywhere_bound bound).imp fun _ both => both.1))
    · exact ok
  case aggregation span op count target condition scope quanta scopePath =>
    obtain ⟨⟨counted, only, met⟩, lasting⟩ := below
    have countBound (node) (found : count = some node) := childBound (.value node)
      (by simp [ValueExpr.children, found])
    have quantaBound (node) (found : quanta = some node) := childBound (.value node)
      (by simp [ValueExpr.children, found])
    rw [Validate.forget_validate_aggregation]
    refine checkTop.bind fun _ _ => only.bind fun _ _ => (option_mapM met).bind fun _ _ => ?_
    refine (option_mapM fun node found => ?_).bind fun _ _ =>
      (option_mapM fun node found => ?_).bind fun _ _ => ok
    · exact validCount (countBound node found) (counted node found)
    · exact validCount (quantaBound node found) (lasting node found)
  case binary =>
    exact forget_bind (forget_within_iff.2 below.1) fun _ _ =>
      forget_bind (forget_within_iff.2 below.2) fun _ _ => ok
  all_goals exact forget_bind (forget_within_iff.2 below) fun _ _ => ok

/-- The validation of a bound expression lacks no name. -/
theorem validated [ZoneTable] {context : Context} {expr : Expr}
    (bound : expr.Everywhere (Expr.Bound context)) : NeverUnresolved expr.validated := by
  induction expr using Expr.byChildren with
  | node expr ih =>
    have below (child) (member : child ∈ expr.children) := ih child member (bound.child member)
    cases expr with
    | bool node => exact validated_bool_iff.2 (boolValidate below)
    | value node => exact validated_value_iff.2 (valueValidate bound below)

end Validate

private theorem stays [ZoneTable] {source : Expr} (bound : source.Everywhere (Expr.Bound context))
    (validates : Expr.ValidatesTo source expr) : expr.Everywhere (Expr.Bound context) :=
  (validates.everywhere_bound bound).imp fun _ both => both.1

/-- The validation of a bound predicate together with its types and its point. -/
theorem checkedBool [ZoneTable] {node : BoolExpr}
    (bound : (Expr.bool node).Everywhere (Expr.Bound context)) :
    NeverUnresolved (Stopped.forget node.checked) := by
  refine forget_bind (validated_bool_iff.1 (validated bound)) fun node' found => ?_
  have bound' := stays bound (.bool found)
  refine forget_bind (forget_check_iff.2 (type_bool_iff.1 (type bound'))) fun _ _ => ?_
  exact forget_bind (forget_check_iff.2 (point bound')) fun _ _ => ok

/-- The validation of a bound value together with its type and its point. -/
theorem checkedValue [ZoneTable] {node : ValueExpr}
    (bound : (Expr.value node).Everywhere (Expr.Bound context)) :
    NeverUnresolved (Stopped.forget node.checked) := by
  refine forget_bind (validated_value_iff.1 (validated bound)) fun node' found => ?_
  have bound' := stays bound (.value found)
  refine forget_bind (forget_check_iff.2 (type_value_iff.1 (type bound'))) fun _ _ => ?_
  exact forget_bind (forget_check_iff.2 (point bound')) fun _ _ => ok

/-- The validation of a bound expression together with its type and its point. -/
theorem validate [ZoneTable] (bound : expr.Everywhere (Expr.Bound context)) :
    NeverUnresolved (Stopped.forget expr.validate) := by
  cases expr with
  | bool node => exact forget_bind (forget_within_iff.2 (checkedBool bound)) fun _ _ => ok
  | value node => exact forget_bind (forget_within_iff.2 (checkedValue bound)) fun _ _ => ok

/-! ### Optimization -/

section Optimize

variable {fold : Bool}

@[simp] theorem optimize_bool_iff {node : BoolExpr} :
    NeverUnresolved ((Expr.bool node).optimize fold) ↔ NeverUnresolved (node.optimize fold) :=
  bind_pure_iff

@[simp] theorem optimize_value_iff {node : ValueExpr} :
    NeverUnresolved ((Expr.value node).optimize fold) ↔ NeverUnresolved (node.optimize fold) :=
  bind_pure_iff

/-- A node whose children are optimized collapses without lacking a name. -/
private theorem collapse {mid : Expr} (same : SameNode (Optimized fold) expr mid)
    (bound : expr.Everywhere (Expr.Bound context)) : NeverUnresolved (mid.collapse fold) := by
  have reduces := reduce (Optimized.everywhere_bound_node same bound)
  cases mid with
  | bool mid =>
    rw [reduce_bool_iff] at reduces
    refine map_iff.2 ?_
    unfold Optimize.foldBool
    split
    · split
      · exact ok
      · split
        · exact reduces.bind fun _ _ => ok
        · exact ok
    · exact ok
  | value mid =>
    rw [reduce_value_iff] at reduces
    refine map_iff.2 ?_
    unfold Optimize.foldValue
    split
    · split
      · exact ok
      · split
        · exact reduces.bind fun _ _ => ok
        · exact ok
    · exact ok

private theorem foldBool {source : Expr} {node : BoolExpr}
    (bound : source.Everywhere (Expr.Bound context))
    (same : SameNode (Optimized fold) source (.bool node)) :
    NeverUnresolved (Optimize.foldBool fold node) := map_iff.1 (collapse same bound)

private theorem foldValue {source : Expr} {node : ValueExpr}
    (bound : source.Everywhere (Expr.Bound context))
    (same : SameNode (Optimized fold) source (.value node)) :
    NeverUnresolved (Optimize.foldValue fold node) := map_iff.1 (collapse same bound)

private theorem optimizeAll {nodes : List ValueExpr}
    (each : ∀ node ∈ nodes, NeverUnresolved (node.optimize fold)) :
    NeverUnresolved (ValueExpr.optimizeAll fold nodes) := by
  induction nodes with
  | nil => exact ok
  | cons node rest ih =>
    obtain ⟨first, others⟩ := List.forall_mem_cons.1 each
    exact first.bind fun _ _ => (ih others).bind fun _ _ => ok

private theorem boolOptimize {node : BoolExpr}
    (bound : (Expr.bool node).Everywhere (Expr.Bound context))
    (below : ∀ child ∈ node.children, NeverUnresolved (child.optimize fold)) :
    NeverUnresolved (node.optimize fold) := by
  cases node <;>
    simp only [BoolExpr.children, List.forall_mem_cons, List.forall_mem_map, optimize_bool_iff,
      optimize_value_iff, List.not_mem_nil, false_implies, implies_true, and_true] at below
  case constant => exact ok
  case boundary => exact ok
  case stepReference => exact ok
  case binary =>
    exact below.1.bind fun _ first => below.2.bind fun _ second =>
      foldBool bound (.connective (by simpa) (by simpa))
  case not => exact below.bind fun _ only => foldBool bound (.not (by simpa))
  case comparison =>
    exact below.1.bind fun _ first => below.2.bind fun _ second =>
      foldBool bound (.comparison (by simpa) (by simpa))
  case bounds =>
    exact below.1.bind fun _ first => below.2.1.bind fun _ second => below.2.2.bind fun _ third =>
      foldBool bound (.bounds (by simpa) (by simpa) (by simpa))
  case nullTest => exact below.bind fun _ only => foldBool bound (.nullTest (by simpa))
  case inList =>
    exact below.1.bind fun _ first => (optimizeAll below.2).bind fun _ others =>
      foldBool bound (.inList (by simpa) (by simpa using Optimize.optimizeAll_eq_ok.1 others))
  case inVector =>
    exact below.1.bind fun _ first => below.2.bind fun _ second =>
      foldBool bound (.inVector (by simpa) (by simpa))
  case wrapper => exact below.bind fun _ only => foldBool bound (.wrapper (by simpa))

private theorem valueOptimize {node : ValueExpr}
    (bound : (Expr.value node).Everywhere (Expr.Bound context))
    (below : ∀ child ∈ node.children, NeverUnresolved (child.optimize fold)) :
    NeverUnresolved (node.optimize fold) := by
  cases node <;>
    simp only [ValueExpr.children, List.forall_mem_append, List.forall_mem_cons,
      List.forall_mem_map, optimize_bool_iff, optimize_value_iff, List.not_mem_nil,
      false_implies, implies_true, and_true, Option.mem_toList] at below
  case constant => exact ok
  case path => exact ok
  case parameter => exact ok
  case now => exact ok
  case binary =>
    exact below.1.bind fun _ first => below.2.bind fun _ second =>
      foldValue bound (.arithmetic (by simpa) (by simpa))
  case unary => exact below.bind fun _ only => foldValue bound (.unary (by simpa))
  case cast => exact below.bind fun _ only => foldValue bound (.cast (by simpa))
  case conversion => exact below.bind fun _ only => foldValue bound (.conversion (by simpa))
  case quantum => exact below.bind fun _ only => foldValue bound (.quantum (by simpa))
  case call span name arguments binding =>
    obtain ⟨binding, rfl, -⟩ := bound.here
    simp only [ValueExpr.optimize]
    split
    · exact (optimizeAll below).bind fun _ all =>
        foldValue bound (.call (by simpa using Optimize.optimizeAll_eq_ok.1 all))
    · rename_i hidden
      exact foldValue bound (.reference (Bool.eq_false_iff.2 hidden))
  case aggregation span op count target condition scope quanta scopePath =>
    obtain ⟨⟨counted, only, met⟩, lasting⟩ := below
    rw [ValueExpr.optimize_aggregation]
    refine (option_mapM counted).bind fun count' first => only.bind fun target' second => ?_
    refine (option_mapM met).bind fun condition' third => ?_
    refine (option_mapM lasting).bind fun quanta' fourth => foldValue bound ?_
    exact .aggregation (rel_of_option_mapM first fun _ _ => Optimized.value_iff.2)
      (Optimized.value_iff.2 second) (rel_of_option_mapM third fun _ _ => Optimized.bool_iff.2)
      (rel_of_option_mapM fourth fun _ _ => Optimized.value_iff.2)

/-- The optimization of a bound expression lacks no name. -/
theorem optimize (bound : expr.Everywhere (Expr.Bound context)) :
    NeverUnresolved (expr.optimize fold) := by
  induction expr using Expr.byChildren with
  | node expr ih =>
    have below (child) (member : child ∈ expr.children) := ih child member (bound.child member)
    cases expr with
    | bool node => exact optimize_bool_iff.2 (boolOptimize bound below)
    | value node => exact optimize_value_iff.2 (valueOptimize bound below)

end Optimize

end NeverUnresolved

end EventQuery
