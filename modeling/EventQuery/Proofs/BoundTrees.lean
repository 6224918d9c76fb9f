import EventQuery.Proofs.Validation

/-!
What binding leaves in a tree stays there: validation and optimization keep every node
bound. Validation also gives every aggregation its counts, which optimization keeps.
-/
namespace EventQuery

open Outcome

variable {context : Context} {fold : Bool} {source expr mid : Expr}

/-! ### Binding -/

namespace Expr

theorem bound_of_isLiteral (literal : expr.isLiteral = true) : expr.Bound context := by
  obtain ⟨span, value, rfl | rfl⟩ := exists_of_isLiteral literal <;> trivial

/-- Scopes are not asked for what binding leaves in a node. -/
theorem Bound.of_samePlace {inner : Context} (bound : expr.Bound inner)
    (same : context.SamePlace inner) : expr.Bound context := by
  obtain ⟨schema, settings, symbols, frames⟩ := inner
  obtain ⟨rfl, rfl, rfl⟩ := same
  cases expr with
  | bool node => cases node <;> exact bound
  | value node => cases node <;> exact bound

/-- In a bound expression every node is bound. -/
theorem BindsIn.everywhere_bound (binds : BindsIn context source expr) :
    expr.Everywhere (Bound context) := by
  induction source using Expr.byChildren generalizing context expr with
  | node source ih =>
    obtain ⟨here, below⟩ := binds.inversion
    refine .node here fun child' member => ?_
    rcases below child' member with literal | ⟨child, listed, inner, surrounds, binds⟩
    · exact .of_isLiteral literal (bound_of_isLiteral literal)
    · exact (ih child listed binds).imp fun _ bound => bound.of_samePlace surrounds.samePlace

end Expr

/-! ### Aggregations -/

/-- An aggregation has a scope, a quanta that is at least 1, and a count if it is `TOP`, which
then is at least 1 too. -/
def Expr.Counted : Expr → Prop
  | .value (.aggregation _ op count _ _ scope quanta scopePath) =>
    scope.isSome = true ∧ scopePath.isSome = true ∧
      (∃ node, quanta = some node ∧ node.IsCount 1) ∧
      (count.isSome = true ↔ op = .top) ∧ ∀ node, count = some node → node.IsCount 1
  | _ => True

namespace Expr

theorem counted_of_isLiteral (literal : expr.isLiteral = true) : expr.Counted := by
  obtain ⟨span, value, rfl | rfl⟩ := exists_of_isLiteral literal <;> trivial

theorem counted_of_isPlain (plain : expr.isPlain = true) : expr.Counted := by
  cases expr with
  | bool node => trivial
  | value node => cases node <;> trivial

end Expr

/-! ### Validation -/

namespace Validate

theorem checkTop_eq_ok {span : Span} {op : AggregationOp} {hasCount : Bool} :
    checkTop span op hasCount = .ok () ↔ (hasCount = true ↔ op = .top) := by
  cases hasCount <;> by_cases top : op = .top <;> simp [checkTop, top]

/-- Only a call of `format_datetime` is about something else after its checks. -/
theorem eq_of_checkCall [ZoneTable] {span : Span} {name : String} {arguments : List ValueExpr}
    {binding binding' : Binding} (found : checkCall span name arguments binding = .ok binding')
    (other : binding.function ≠ .formatDatetime) : binding' = binding := by
  unfold checkCall at found
  dsimp only at found
  split at found
  case h_1 =>
    simp only [bind_eq_ok, pure_eq_ok] at found
    obtain ⟨_, _, rfl⟩ := found
    rfl
  case h_2 =>
    simp only [bind_eq_ok, pure_eq_ok] at found
    obtain ⟨_, _, rfl⟩ := found
    rfl
  case h_3 formats => exact absurd formats other
  case h_4 => exact (pure_eq_ok.1 found).symm

theorem counted_of_aggregation [ZoneTable] {span : Span} {op : AggregationOp}
    {count quanta : Option ValueExpr}
    {target : ValueExpr} {condition : Option BoolExpr} {scope : Option String}
    {scopePath : Option Path} {node' : ValueExpr}
    (valid :
      (ValueExpr.aggregation span op count target condition scope quanta scopePath).validate =
        .ok node')
    (bound :
      (Expr.value (.aggregation span op count target condition scope quanta scopePath)).Bound
        context) :
    (Expr.value node').Bound context ∧ (Expr.value node').Counted := by
  obtain ⟨named, lasts, path, rfl, isRelation⟩ := bound
  obtain ⟨quanta, rfl⟩ := Option.isSome_iff_exists.1 lasts
  obtain ⟨count', target', condition', quanta', top, counted, only, met, lasting, rfl⟩ :=
    aggregation_parts valid
  obtain ⟨folded, folds, rfl⟩ := rel_some_iff.1 lasting
  refine ⟨⟨named, rfl, path, rfl, isRelation⟩, named, rfl,
    ⟨folded, rfl, isCount_of_validCount folds⟩, ?_, ?_⟩
  · rw [← checkTop_eq_ok.1 top]
    cases counted <;> rfl
  · rintro node rfl
    obtain ⟨_, _, folds⟩ := exists_of_rel_some counted
    exact isCount_of_validCount folds

end Validate

namespace Expr.ValidatesTo

private theorem counted_of_call [ZoneTable] {span : Span} {name : String}
    {arguments : List ValueExpr} {binding : Option Binding} {node' : ValueExpr}
    (valid : (ValueExpr.call span name arguments binding).validate = .ok node')
    (bound : (Expr.value (.call span name arguments binding)).Bound context) :
    (Expr.value node').Bound context ∧ (Expr.value node').Counted := by
  have resolved := ((ValidatesTo.value valid).inversion bound.resolved).1
  obtain ⟨known, rfl, complete⟩ := bound
  simp only [ValueExpr.validate] at valid
  split at valid
  case isTrue =>
    simp only [bind_eq_ok, pure_eq_ok, Stopped.within_eq_ok] at valid
    obtain ⟨arguments', all, binding', found, rfl⟩ := valid
    obtain ⟨known', isKnown, fits⟩ := resolved
    obtain rfl := Option.some.inj isKnown
    refine ⟨⟨_, rfl, fits, fun described => ?_⟩, trivial⟩
    rw [Validate.checkCall_function found] at described
    have other : known.function ≠ .formatDatetime := by
      intro formats
      rcases described with described | described <;> cases formats.symm.trans described
    rw [Validate.eq_of_checkCall found other]
    exact complete.located described
  case isFalse =>
    cases valid
    exact ⟨⟨known, rfl, complete⟩, trivial⟩

/-- Validation keeps a node bound, and gives it its counts. -/
theorem bound_and_counted [ZoneTable] (validates : ValidatesTo source expr)
    (bound : source.Bound context) :
    expr.Bound context ∧ expr.Counted := by
  by_cases plain : source.isPlain = true
  · have plain' := ((sameNode_iff plain).1 validates).isPlain_eq.trans plain
    exact ⟨bound_of_isPlain plain', counted_of_isPlain plain'⟩
  cases validates with
  | @bool node node' valid =>
    cases node <;> first | exact absurd rfl plain | skip
    case boundary =>
      cases valid
      exact ⟨bound, trivial⟩
    case stepReference =>
      cases valid
      exact ⟨bound, trivial⟩
  | @value node node' valid =>
    cases node <;> first | exact absurd rfl plain | skip
    case path =>
      cases valid
      exact ⟨bound, trivial⟩
    case parameter =>
      cases valid
      exact ⟨bound, trivial⟩
    case quantum span taken operand zone known =>
      rcases zone with _ | zone <;>
        simp only [ValueExpr.validate, bind_eq_ok, pure_eq_ok, Stopped.within_eq_ok] at valid
      · obtain ⟨operand, only, rfl⟩ := valid
        exact ⟨trivial, trivial⟩
      · obtain ⟨operand, only, _, _, rfl⟩ := valid
        exact ⟨trivial, trivial⟩
    case call => exact counted_of_call valid bound
    case aggregation => exact Validate.counted_of_aggregation valid bound

/-- In the validated form of a bound expression every node is bound and has its counts. -/
theorem everywhere_bound [ZoneTable] (validates : ValidatesTo source expr)
    (bound : source.Everywhere (Bound context)) :
    expr.Everywhere fun expr => expr.Bound context ∧ expr.Counted := by
  induction source using Expr.byChildren generalizing expr with
  | node source ih =>
    obtain ⟨-, -, below⟩ := validates.inversion bound.here.resolved
    refine .node (validates.bound_and_counted bound.here) fun child' member => ?_
    rcases below child' member with literal | ⟨child, listed, validates⟩
    · exact .of_isLiteral literal ⟨bound_of_isLiteral literal, counted_of_isLiteral literal⟩
    · exact ih child listed validates (bound.child listed)

end Expr.ValidatesTo

/-! ### Optimization -/

namespace Optimized

variable {expr' : Expr}

private theorem bound_node (same : SameNode (Optimized fold) expr mid)
    (bound : expr.Bound context) : mid.Bound context := by
  cases same
  case call span name arguments arguments' binding all =>
    obtain ⟨known, isKnown, complete⟩ := bound
    obtain rfl := Option.some.inj isKnown
    exact ⟨_, rfl, complete.toFits.of_optimized all, complete.located⟩
  case aggregation lasting =>
    obtain ⟨named, lasts, located⟩ := bound
    refine ⟨named, ?_, located⟩
    rw [← lasts]
    cases lasting <;> rfl
  all_goals exact bound

private theorem isCount_of_rel {least : Int} {node node' : ValueExpr} (count : node.IsCount least)
    (optimized : Optimized fold (.value node) (.value node')) : node'.IsCount least := by
  obtain ⟨span, value, rfl, counts⟩ := count
  exact ⟨span, value, (Except.ok.inj (value_iff.1 optimized)).symm, counts⟩

private theorem counted_node (same : SameNode (Optimized fold) expr mid)
    (counted : expr.Counted) : mid.Counted := by
  cases same
  case aggregation given only met lasting =>
    obtain ⟨named, located, ⟨quanta, rfl, lasts⟩, top, counts⟩ := counted
    obtain ⟨quanta', optimized, rfl⟩ := rel_some_iff.1 lasting
    refine ⟨named, located, ⟨quanta', rfl, isCount_of_rel lasts optimized⟩, ?_, ?_⟩
    · rw [← top]
      cases given <;> rfl
    · rintro node rfl
      obtain ⟨source, rfl, optimized⟩ := exists_of_rel_some given
      exact isCount_of_rel (counts source rfl) optimized
  all_goals exact counted

/-- In the optimized form of a bound expression every node is bound. -/
theorem everywhere_bound (optimized : Optimized fold expr expr')
    (bound : expr.Everywhere (Expr.Bound context)) : expr'.Everywhere (Expr.Bound context) :=
  optimized.everywhere bound (fun same here => bound_node same here)
    fun _ => Expr.bound_of_isLiteral

/-- A bound node stays bound when its children are optimized. -/
theorem everywhere_bound_node (same : SameNode (Optimized fold) expr mid)
    (bound : expr.Everywhere (Expr.Bound context)) : mid.Everywhere (Expr.Bound context) :=
  same.everywhere bound (bound_node same bound.here) fun _ listed _ optimized =>
    optimized.everywhere_bound (bound.child listed)

/-- Optimization keeps the counts of aggregations. -/
theorem everywhere_counted (optimized : Optimized fold expr expr')
    (counted : expr.Everywhere Expr.Counted) : expr'.Everywhere Expr.Counted :=
  optimized.everywhere counted (fun same here => counted_node same here)
    fun _ => Expr.counted_of_isLiteral

end Optimized

end EventQuery
