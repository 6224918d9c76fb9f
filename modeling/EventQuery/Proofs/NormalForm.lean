import EventQuery.Proofs.Counts
import EventQuery.Proofs.Rewriting
import EventQuery.Statement.Optimize

/-!
Normal forms of optimization, described without the pass: nothing that optimization looks at
can be rewritten. What optimization gives is a normal form, and a normal form is optimized to
itself. So one sweep from the leaves up is enough, for expressions and for whole programs.
-/
namespace EventQuery

open Optimize Outcome

variable {fold : Bool} {expr expr' mid : Expr}

/-! ### Normal forms -/

namespace Expr

/-- A call that binding did not reach. -/
def IsUnboundCall (expr : Expr) : Prop :=
  ∃ span name arguments, expr = .value (.call span name arguments none)

/-- No rewriting applies to the node: it is a literal if it is known at compile time, neither
side of a connective is a truth value, and no negation stands directly below another. -/
structure Irreducible (expr : Expr) : Prop where
  literal : expr.isConstant = true → expr.isLiteral = true
  connective : ∀ span op left right, expr = .bool (.binary span op left right) →
    left.constant? = none ∧ right.constant? = none
  negation : ∀ span span' operand, expr ≠ .bool (.not span (.not span' operand))

/-- The children that optimization looks at. The argument of a call that names a statement
is not one of them. -/
def reached : Expr → List Expr
  | .value (.call _ _ arguments (some binding)) =>
    if optimizesArguments binding.function then arguments.map .value else []
  | expr => expr.children

/-- Optimization finds nothing to do: all calls are bound, and with folding every node is
irreducible. -/
inductive Normal (fold : Bool) : Expr → Prop where
  | node {expr : Expr} (bound : ¬expr.IsUnboundCall)
    (irreducible : fold = true → expr.Irreducible)
    (parts : ∀ part ∈ expr.reached, Normal fold part) : Normal fold expr

theorem mem_children_of_mem_reached {child : Expr} (member : child ∈ expr.reached) :
    child ∈ expr.children := by
  unfold reached at member
  split at member
  case h_1 =>
    split at member
    case isTrue => exact member
    case isFalse => cases member
  case h_2 => exact member

theorem reached_of_hidden {span : Span} {name : String} {arguments : List ValueExpr}
    {binding : Binding} (hidden : optimizesArguments binding.function = false) :
    (Expr.value (.call span name arguments (some binding))).reached = [] := by
  simp [reached, hidden]

namespace Normal

theorem bound (normal : expr.Normal fold) : ¬expr.IsUnboundCall := by
  cases normal with
  | node bound _ _ => exact bound

theorem irreducible (normal : expr.Normal fold) (folding : fold = true) : expr.Irreducible := by
  cases normal with
  | node _ irreducible _ => exact irreducible folding

theorem part {child : Expr} (normal : expr.Normal fold) (member : child ∈ expr.reached) :
    child.Normal fold := by
  cases normal with
  | node _ _ parts => exact parts child member

theorem of_isLiteral (literal : expr.isLiteral = true) : expr.Normal fold := by
  refine .node ?_ (fun _ => ⟨fun _ => literal, ?_, ?_⟩) ?_
  · rintro ⟨_, _, _, rfl⟩
    cases literal
  · rintro _ _ _ _ rfl
    cases literal
  · rintro _ _ _ rfl
    cases literal
  · obtain ⟨span, value, rfl | rfl⟩ := exists_of_isLiteral literal <;> exact List.forall_mem_nil _

end Normal

end Expr

namespace SameNode

/-- What the relation says about the second of two children holds of every child that
optimization looks at. -/
theorem forall_reached {P : Expr → Prop} (same : SameNode (fun _ child' => P child') expr expr') :
    ∀ child ∈ expr'.reached, P child := by
  intro child member
  refine same.symm.forall_children ?_ child (Expr.mem_children_of_mem_reached member)
  rintro span name arguments binding hidden rfl -
  rw [Expr.reached_of_hidden hidden] at member
  cases member

theorem isUnboundCall {R : Expr → Expr → Prop} (same : SameNode R expr expr')
    (unbound : expr'.IsUnboundCall) : expr.IsUnboundCall := by
  obtain ⟨span, name, arguments, rfl⟩ := unbound
  cases same with
  | leaf _ => exact ⟨span, name, arguments, rfl⟩

private theorem rel_self {α : Type} {R : α → α → Prop} {part : Option α}
    (each : ∀ found, part = some found → R found found) : Option.Rel R part part := by
  cases part with
  | none => exact .none
  | some found => exact .some (each found rfl)

private theorem forall₂_values {R : Expr → Expr → Prop} {nodes : List ValueExpr}
    (each : ∀ child ∈ nodes.map .value, R child child) :
    List.Forall₂ (fun node node' => R (.value node) (.value node')) nodes nodes :=
  List.forall₂_same.2 (List.forall_mem_map.1 each)

/-- A node is the same as itself if the children that optimization looks at are related to
themselves. -/
theorem refl {R : Expr → Expr → Prop} (bound : ¬expr.IsUnboundCall)
    (parts : ∀ child ∈ expr.reached, R child child) : SameNode R expr expr := by
  cases expr with
  | bool node =>
    cases node <;>
      simp only [Expr.reached, Expr.children, BoolExpr.children, List.forall_mem_cons] at parts
    case constant => exact .leaf rfl
    case boundary => exact .leaf rfl
    case stepReference => exact .leaf rfl
    case binary => exact .connective parts.1 parts.2.1
    case not => exact .not parts.1
    case comparison => exact .comparison parts.1 parts.2.1
    case bounds => exact .bounds parts.1 parts.2.1 parts.2.2.1
    case nullTest => exact .nullTest parts.1
    case inList => exact .inList parts.1 (forall₂_values parts.2)
    case inVector => exact .inVector parts.1 parts.2.1
    case wrapper => exact .wrapper parts.1
  | value node =>
    cases node
    case constant => exact .leaf rfl
    case path => exact .leaf rfl
    case parameter => exact .leaf rfl
    case now => exact .leaf rfl
    case binary => exact .arithmetic (parts _ (.head _)) (parts _ (.tail _ (.head _)))
    case unary => exact .unary (parts _ (.head _))
    case cast => exact .cast (parts _ (.head _))
    case conversion => exact .conversion (parts _ (.head _))
    case quantum => exact .quantum (parts _ (.head _))
    case call span name arguments binding =>
      rcases binding with _ | binding
      · exact absurd ⟨span, name, arguments, rfl⟩ bound
      · by_cases looks : optimizesArguments binding.function = true
        · exact .call (forall₂_values (by simpa [Expr.reached, looks] using parts))
        · exact .reference (Bool.eq_false_iff.2 looks)
    case aggregation span op count target condition scope quanta scopePath =>
      simp only [Expr.reached, Expr.children, ValueExpr.children, List.mem_append, List.mem_cons,
        List.mem_map, Option.mem_toList] at parts
      refine .aggregation (rel_self fun node found => parts _ ?_) (parts _ (.inl (.inr (.inl rfl))))
        (rel_self fun node found => parts _ ?_) (rel_self fun node found => parts _ ?_)
      · exact .inl (.inl ⟨node, found, rfl⟩)
      · exact .inl (.inr (.inr ⟨node, found, rfl⟩))
      · exact .inr ⟨node, found, rfl⟩

end SameNode

/-! ### The pass gives normal forms -/

namespace Optimize

private theorem eq_none_of_ne {known : Option Bool} (notFalse : known ≠ some false)
    (notTrue : known ≠ some true) : known = none := by
  rcases known with _ | _ | _
  · rfl
  · exact absurd rfl notFalse
  · exact absurd rfl notTrue

private theorem normal_shortCircuit {span : Span} {op : Connective} {left right : BoolExpr}
    (unknown : (BoolExpr.binary span op left right).isConstant = false)
    (first : (Expr.bool left).Normal true) (second : (Expr.bool right).Normal true) :
    (Expr.bool (shortCircuit span op left right)).Normal true := by
  unfold shortCircuit
  split
  case h_9 op _ _ _ andLeft orLeft andLeft' orLeft' andRight orRight andRight' orRight' =>
    have undecided : left.constant? = none ∧ right.constant? = none := by
      cases op with
      | and =>
        exact ⟨eq_none_of_ne (andLeft rfl) (andLeft' rfl),
          eq_none_of_ne (andRight rfl) (andRight' rfl)⟩
      | or =>
        exact ⟨eq_none_of_ne (orLeft' rfl) (orLeft rfl),
          eq_none_of_ne (orRight' rfl) (orRight rfl)⟩
    refine .node nofun (fun _ => ⟨fun known => ?_, ?_, nofun⟩) ?_
    · exact absurd known (Bool.eq_false_iff.1 unknown)
    · rintro _ _ _ _ ⟨⟩
      exact undecided
    · exact List.forall_mem_cons.2 ⟨first, List.forall_mem_singleton.2 second⟩
  case h_5 => exact second
  case h_6 => exact second
  case h_7 => exact first
  case h_8 => exact first
  all_goals exact .of_isLiteral rfl

private theorem normal_simplified {node : BoolExpr} (unknown : node.isConstant = false)
    (parts : ∀ part ∈ node.children, part.Normal true) :
    (Expr.bool (simplified node)).Normal true := by
  unfold simplified
  split
  case h_1 span op left right =>
    obtain ⟨first, second⟩ := List.forall_mem_cons.1 parts
    exact normal_shortCircuit unknown first (List.forall_mem_singleton.1 second)
  case h_2 =>
    exact (parts _ List.mem_cons_self).part List.mem_cons_self
  case h_3 noConnective noNegation =>
    refine .node nofun (fun _ => ⟨fun known => ?_, ?_, ?_⟩) parts
    · exact absurd known (Bool.eq_false_iff.1 unknown)
    · rintro span op left right ⟨⟩
      exact (noConnective _ _ _ _ rfl).elim
    · rintro span span' operand ⟨⟩
      exact noNegation _ _ _ rfl

/-- What a node with normal children becomes is a normal form. -/
theorem normal_of_collapse (collapses : mid.collapse fold = .ok expr')
    (bound : ¬mid.IsUnboundCall) (parts : ∀ part ∈ mid.reached, part.Normal fold) :
    expr'.Normal fold := by
  cases mid with
  | bool node =>
    obtain ⟨node', folds, rfl⟩ := map_eq_ok.1 collapses
    unfold foldBool at folds
    split at folds
    case isFalse plain =>
      cases folds
      exact .node bound (fun folding => absurd folding plain) parts
    case isTrue folding =>
      subst folding
      split at folds
      case h_1 =>
        cases folds
        exact .of_isLiteral rfl
      case h_2 =>
        split at folds
        case isTrue known =>
          obtain ⟨truth, _, folds⟩ := bind_eq_ok.1 folds
          cases folds
          exact .of_isLiteral rfl
        case isFalse unknown =>
          cases folds
          exact normal_simplified (Bool.eq_false_iff.2 unknown) parts
  | value node =>
    obtain ⟨node', folds, rfl⟩ := map_eq_ok.1 collapses
    unfold foldValue at folds
    split at folds
    case isFalse plain =>
      cases folds
      exact .node bound (fun folding => absurd folding plain) parts
    case isTrue folding =>
      subst folding
      split at folds
      case h_1 =>
        cases folds
        exact .of_isLiteral rfl
      case h_2 =>
        split at folds
        case isTrue known =>
          obtain ⟨constant, _, folds⟩ := bind_eq_ok.1 folds
          cases folds
          exact .of_isLiteral rfl
        case isFalse unknown =>
          cases folds
          exact .node bound (fun _ => ⟨fun known => absurd known unknown, nofun, nofun⟩) parts

end Optimize

/-- Optimization gives normal forms. -/
theorem Optimized.normal (optimized : Optimized fold expr expr') : expr'.Normal fold := by
  induction expr using Expr.byChildren generalizing expr' with
  | node expr ih =>
    obtain ⟨mid, same, collapses⟩ := optimized.exists_collapse
    have parts : SameNode (fun _ child' => child'.Normal fold) expr mid :=
      same.imp fun child member _ optimized => ih child member optimized
    have bound : ¬mid.IsUnboundCall := fun unbound => by
      obtain ⟨span, name, arguments, rfl⟩ := same.isUnboundCall unbound
      cases optimized
    exact normal_of_collapse collapses bound parts.forall_reached

/-! ### Normal forms stay -/

namespace Optimize

theorem shortCircuit_of_undecided {span : Span} {op : Connective} {left right : BoolExpr}
    (first : left.constant? = none) (second : right.constant? = none) :
    shortCircuit span op left right = .binary span op left right := by
  cases op <;> simp [shortCircuit, first, second]

theorem simplified_of_irreducible {node : BoolExpr} (irreducible : (Expr.bool node).Irreducible) :
    simplified node = node := by
  unfold simplified
  split
  case h_1 =>
    obtain ⟨first, second⟩ := irreducible.connective _ _ _ _ rfl
    exact shortCircuit_of_undecided first second
  case h_2 => exact absurd rfl (irreducible.negation _ _ _)
  case h_3 => rfl

/-- An irreducible node does not collapse. -/
theorem collapse_of_irreducible (irreducible : fold = true → expr.Irreducible) :
    expr.collapse fold = .ok expr := by
  cases fold with
  | false => cases expr <;> rfl
  | true =>
    have stays := irreducible rfl
    cases expr with
    | bool node =>
      refine map_eq_ok.2 ⟨node, ?_, rfl⟩
      simp only [foldBool, if_true]
      split
      case h_1 => rfl
      case h_2 open' =>
        have unknown : ¬node.isConstant = true := fun known => by
          obtain ⟨span, value, same | same⟩ := Expr.exists_of_isLiteral (stays.literal known)
          · cases same
            exact open' _ _ rfl
          · cases same
        rw [if_neg unknown, simplified_of_irreducible stays]
    | value node =>
      refine map_eq_ok.2 ⟨node, ?_, rfl⟩
      simp only [foldValue, if_true]
      split
      case h_1 => rfl
      case h_2 open' =>
        have unknown : ¬node.isConstant = true := fun known => by
          obtain ⟨span, value, same | same⟩ := Expr.exists_of_isLiteral (stays.literal known)
          · cases same
          · cases same
            exact open' _ _ rfl
        rw [if_neg unknown]

end Optimize

theorem Expr.Normal.optimized (normal : expr.Normal fold) : Optimized fold expr expr := by
  induction normal with
  | node bound irreducible _ ih =>
    have same := SameNode.refl bound ih
    unfold Optimized
    rw [Optimized.optimize_eq_collapse same (fun _ _ _ unbound => bound ⟨_, _, _, unbound⟩)
      fun _ _ _ _ _ _ => rfl, collapse_of_irreducible irreducible]

/-! ### Statements -/

namespace Optimize

theorem settles_expr : Settles (Expr.optimize fold) := fun optimized =>
  (Optimized.normal optimized).optimized

theorem settles_bool : Settles (BoolExpr.optimize fold) := fun optimized =>
  Optimized.bool_iff.1 (settles_expr (Optimized.bool_iff.2 optimized))

theorem settles_value : Settles (ValueExpr.optimize fold) := fun optimized =>
  Optimized.value_iff.1 (settles_expr (Optimized.value_iff.2 optimized))

theorem settles_duration (what : String) : Settles fun node => Validate.duration node what :=
  Settles.option fun folds => by
    rw [Stopped.forget_eq_ok] at folds ⊢
    exact Validate.foldDuration_of_isDuration (Validate.isDuration_of_foldDuration folds)

theorem settles_query : Settles (query fold) := by
  intro part value succeeds
  simp only [query, bind_eq_ok, pure_eq_ok] at succeeds ⊢
  obtain ⟨selections, selected, condition, met, groupBy, grouped, rfl⟩ := succeeds
  have selection : Settles fun selection : Selection => do
      return { selection with expr := ← selection.expr.optimize fold } := by
    intro part value succeeds
    simp only [bind_eq_ok, pure_eq_ok] at succeeds ⊢
    obtain ⟨expr, optimized, rfl⟩ := succeeds
    exact ⟨expr, settles_expr optimized, rfl⟩
  exact ⟨selections, selection.list selected, condition, settles_bool.option met, groupBy,
    settles_value.list grouped, rfl⟩

theorem settles_trigger : Settles (trigger fold) := by
  intro part value succeeds
  simp only [trigger, bind_eq_ok, pure_eq_ok] at succeeds ⊢
  obtain ⟨timing, timed, within, lasting, after, waiting, rfl⟩ := succeeds
  exact ⟨timing, settles_value.option timed, within, settles_duration _ lasting, after,
    settles_duration _ waiting, rfl⟩

theorem settles_step : Settles (step fold) := by
  intro part value succeeds
  simp only [step, bind_eq_ok, pure_eq_ok] at succeeds ⊢
  obtain ⟨condition, met, trigger, triggered, rfl⟩ := succeeds
  exact ⟨condition, settles_bool met, trigger, settles_trigger.option triggered, rfl⟩

theorem settles_funnel : Settles (funnel fold) := by
  intro part value succeeds
  simp only [funnel, bind_eq_ok, pure_eq_ok] at succeeds ⊢
  obtain ⟨steps, stepped, within, lasting, rfl⟩ := succeeds
  exact ⟨steps, settles_step.list stepped, within, settles_duration _ lasting, rfl⟩

theorem settles_segment : Settles (segment fold) := by
  intro part value succeeds
  simp only [segment, bind_eq_ok, pure_eq_ok] at succeeds ⊢
  obtain ⟨definitions, defined, rfl⟩ := succeeds
  have definition : Settles fun definition : SegmentDefinition => do
      return { definition with condition := ← definition.condition.optimize fold } := by
    intro part value succeeds
    simp only [bind_eq_ok, pure_eq_ok] at succeeds ⊢
    obtain ⟨condition, optimized, rfl⟩ := succeeds
    exact ⟨condition, settles_bool optimized, rfl⟩
  exact ⟨definitions, definition.list defined, rfl⟩

theorem settles_statement : Settles (statement fold) := by
  intro part value succeeds
  cases part with
  | query known =>
    simp only [statement, bind_eq_ok, pure_eq_ok] at succeeds
    obtain ⟨known', optimized, rfl⟩ := succeeds
    exact bind_eq_ok.2 ⟨known', settles_query optimized, rfl⟩
  | view known =>
    simp only [statement, bind_eq_ok, pure_eq_ok] at succeeds
    obtain ⟨condition, optimized, rfl⟩ := succeeds
    exact bind_eq_ok.2 ⟨condition, settles_bool optimized, rfl⟩
  | funnel known =>
    simp only [statement, bind_eq_ok, pure_eq_ok] at succeeds
    obtain ⟨known', optimized, rfl⟩ := succeeds
    exact bind_eq_ok.2 ⟨known', settles_funnel optimized, rfl⟩
  | segment known =>
    simp only [statement, bind_eq_ok, pure_eq_ok] at succeeds
    obtain ⟨known', optimized, rfl⟩ := succeeds
    exact bind_eq_ok.2 ⟨known', settles_segment optimized, rfl⟩

theorem settles_program : Settles (Program.optimize fold) := by
  intro part value succeeds
  simp only [Program.optimize, bind_eq_ok, pure_eq_ok] at succeeds ⊢
  obtain ⟨statements, optimized, rfl⟩ := succeeds
  exact ⟨statements, settles_statement.list optimized, rfl⟩

end Optimize

/-- Optimization is idempotent. What it makes of an expression is a normal form, which a second
run gives back as it is, and a second run gives back a whole program as well. -/
theorem optimize_optimize :
    (∀ expr expr' : Expr, expr.optimize fold = .ok expr' →
      expr'.Normal fold ∧ expr'.optimize fold = .ok expr') ∧
    ∀ program program' : Program, program.optimize fold = .ok program' →
      program'.optimize fold = .ok program' :=
  ⟨fun _ _ optimized => ⟨Optimized.normal optimized, settles_expr optimized⟩,
    fun _ _ optimized => settles_program optimized⟩

/-- `NOT NOT STEP(1) AND 1 < 2`: both sides are rewritten before the connective gives way. -/
private def nested : BoolExpr :=
  .ofBinary .and (.ofNot (.ofNot (.ofStep 1)))
    (.ofComparison .lt (.ofConstant (.integer 1)) (.ofConstant (.integer 2)))

private def viewOf (condition : BoolExpr) : Program :=
  ⟨.none, [.view ⟨.none, "v", [], condition⟩]⟩

theorem optimize_optimize_nested :
    ((Expr.bool nested).optimize true = .ok (.bool (.ofStep 1)) ∧
      (Expr.bool (.ofStep 1)).Normal true ∧
      (Expr.bool (.ofStep 1)).optimize true = .ok (.bool (.ofStep 1))) ∧
    (viewOf nested).optimize true = .ok (viewOf (.ofStep 1)) ∧
      (viewOf (.ofStep 1)).optimize true = .ok (viewOf (.ofStep 1)) :=
  have expr : (Expr.bool nested).optimize true = .ok (.bool (.ofStep 1)) := rfl
  have program : (viewOf nested).optimize true = .ok (viewOf (.ofStep 1)) := rfl
  ⟨⟨expr, optimize_optimize.1 _ _ expr⟩, program, optimize_optimize.2 _ _ program⟩

end EventQuery
