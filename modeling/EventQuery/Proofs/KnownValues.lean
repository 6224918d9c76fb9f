import EventQuery.Proofs.Reduction

/-!
What is known at compile time, under optimization: folding replaces it by the constant that it
reduces to. A predicate may become known when a connective loses an operand, but a value is
known afterwards only if it was known before.
-/
namespace EventQuery

open Outcome

variable {fold : Bool} {expr mid : Expr}

/-- A predicate stands directly below a value only in an aggregation, which is never known. -/
private theorem unknown_of_condition {R : Expr → Expr → Prop} {node : ValueExpr}
    {condition : BoolExpr} (member : .bool condition ∈ node.children)
    (same : SameNode R (.value node) mid) : mid.isConstant = false := by
  cases node <;> simp [ValueExpr.children] at member
  case aggregation =>
    cases same
    case leaf childless => simp [Expr.children, ValueExpr.children] at childless
    case aggregation => rfl

/-- The node below a value is known only if the children were known before. -/
private theorem isConstant_of_mid {node : ValueExpr}
    (same : SameNode (fun child child' => ∀ node, child = .value node →
      child'.isConstant = true → child.isConstant = true) (.value node) mid)
    (known : mid.isConstant = true) : node.isConstant = true := by
  have backward : SameNode (fun child child' => child'.isConstant = true → child.isConstant = true)
      (.value node) mid := by
    refine same.imp fun child member child' kept => ?_
    cases child with
    | value node => exact kept node rfl
    | bool condition => simp [unknown_of_condition member same] at known
  exact backward.symm.known known

/-- The children of a known value are known values. -/
theorem ValueExpr.isConstant_child {node : ValueExpr} (known : node.isConstant = true)
    {child : Expr} (member : child ∈ node.children) :
    child.isConstant = true ∧ ∃ node', child = .value node' := by
  cases node <;>
    simp only [ValueExpr.isConstant, Bool.and_eq_true, ValueExpr.children, List.mem_cons,
      List.not_mem_nil, or_false, Bool.false_eq_true] at known member
  case binary =>
    rcases member with rfl | rfl
    · exact ⟨known.1, _, rfl⟩
    · exact ⟨known.2, _, rfl⟩
  case call span name arguments binding =>
    rcases binding with _ | binding
    · cases known
    · obtain ⟨node', listed, rfl⟩ := List.mem_map.1 member
      exact ⟨Reduce.forall_isConstant (Reduce.all_of_isConstantCall known) node' listed, _, rfl⟩
  all_goals
    subst member
    exact ⟨known, _, rfl⟩

namespace Optimized

/-- Optimization keeps the family of an expression. -/
theorem exists_value {node : ValueExpr} {expr' : Expr}
    (optimized : Optimized fold (.value node) expr') : ∃ node', expr' = .value node' := by
  obtain ⟨node', _, rfl⟩ := Expr.optimize_value.1 optimized
  exact ⟨node', rfl⟩

theorem isConstant_of_value {node : ValueExpr} {expr' : Expr}
    (optimized : Optimized fold (.value node) expr') (known : expr'.isConstant = true) :
    node.isConstant = true := by
  generalize same : Expr.value node = expr at optimized
  induction expr using Expr.byChildren generalizing node expr' with
  | node expr ih =>
    subst same
    obtain ⟨node', rfl⟩ := optimized.exists_value
    obtain ⟨mid, same, folded⟩ := optimized.inversion
    refine isConstant_of_mid
      (same.imp fun child member child' optimized node isValue known => ?_) ?_
    · subst isValue
      exact ih _ member known rfl optimized
    · cases folded with
      | kept => exact known
      | value knownMid => exact knownMid

end Optimized

/-! ### Expressions that are known -/

theorem BoolExpr.isConstant_child {node : BoolExpr} (known : node.isConstant = true)
    {child : Expr} (member : child ∈ node.children) : child.isConstant = true := by
  cases node <;>
    simp only [BoolExpr.isConstant, Bool.and_eq_true, BoolExpr.children, List.mem_cons,
      List.not_mem_nil, or_false, Bool.false_eq_true] at known member
  case inList =>
    rcases member with rfl | member
    · exact known.1
    · obtain ⟨node', listed, rfl⟩ := List.mem_map.1 member
      exact Reduce.forall_isConstant known.2 node' listed
  case bounds =>
    rcases member with rfl | rfl | rfl
    · exact known.1.1
    · exact known.1.2
    · exact known.2
  case not | nullTest | wrapper =>
    subst member
    exact known
  all_goals
    rcases member with rfl | rfl
    · exact known.1
    · exact known.2

namespace Expr

/-- The children of a known expression are known. -/
theorem isConstant_child (known : expr.isConstant = true) {child : Expr}
    (member : child ∈ expr.children) : child.isConstant = true := by
  cases expr with
  | bool node => exact BoolExpr.isConstant_child known member
  | value node => exact (ValueExpr.isConstant_child known member).1

/-- The constant that takes the place of an expression. A predicate that is a constant as it stands
stays so, and its constant may be `NULL`. -/
def asConstant (constant : Constant) : Expr → Expr
  | .bool (.constant span known) => .bool (.constant span known)
  | .bool node => .bool (.constant node.span constant)
  | .value node => .value (.constant node.span constant)

variable {constant : Constant}

theorem isConstant_asConstant : (expr.asConstant constant).isConstant = true := by
  cases expr with
  | bool node => cases node <;> rfl
  | value node => rfl

theorem reduce_asConstant (found : expr.reduce = .ok constant) :
    (expr.asConstant constant).reduce = .ok constant := by
  cases expr with
  | bool node =>
    obtain ⟨truth, _, found'⟩ := bind_eq_ok.1 found
    obtain rfl := pure_eq_ok.1 found'
    cases node <;> first | exact found | rfl
  | value node => rfl

/-- A known node whose children are optimized gives way to its constant. -/
theorem collapse_of_isConstant (known : expr.isConstant = true) {expr' : Expr} :
    expr.collapse true = .ok expr' ↔
      ∃ constant, expr.reduce = .ok constant ∧ expr.asConstant constant = expr' := by
  cases expr with
  | bool node =>
    have known : node.isConstant = true := known
    have folded {span : Span} {truth : Except Diagnostic Bool} :
        bool <$> (do return BoolExpr.constant span (.boolean (← truth))) = .ok expr' ↔
          ∃ constant, (do return Constant.boolean (← truth)) = .ok constant ∧
            bool (.constant span constant) = expr' := by
      cases truth <;> simp
    cases node
    case constant =>
      simp [collapse, Optimize.foldBool, reduce, BoolExpr.reduce, asConstant]
    all_goals
      simp only [collapse, Optimize.foldBool, if_true, known]
      exact folded
  | value node =>
    have known : node.isConstant = true := known
    cases node
    case constant =>
      simp [collapse, Optimize.foldValue, reduce, ValueExpr.reduce, asConstant, ValueExpr.span]
    all_goals
      simp only [collapse, Optimize.foldValue, if_true, known, map_eq_ok, bind_eq_ok, pure_eq_ok]
      simp [reduce, asConstant]

end Expr

/-- A node is replaced by the same constant whatever its children are. -/
theorem SameNode.asConstant_eq {R : Expr → Expr → Prop} (same : SameNode R expr mid)
    (constant : Constant) : mid.asConstant constant = expr.asConstant constant := by
  cases same <;> rfl

namespace Optimized

variable {expr' : Expr}

/-- What is known becomes the constant that it reduces to. -/
theorem exists_asConstant (optimized : Optimized true expr expr')
    (known : expr.isConstant = true) :
    ∃ constant, expr.reduce = .ok constant ∧ expr' = expr.asConstant constant := by
  induction expr using Expr.byChildren generalizing expr' with
  | node expr ih =>
    obtain ⟨mid, same, collapses⟩ := optimized.exists_collapse
    have both : SameNode (fun child child' => Preserved child child' ∧ Preserved child' child)
        expr mid := by
      refine same.imp fun child member child' optimized => ?_
      have knownChild := Expr.isConstant_child known member
      obtain ⟨constant, found, rfl⟩ := ih child member optimized knownChild
      have found' := Expr.reduce_asConstant found
      exact ⟨⟨fun _ => Expr.isConstant_asConstant, by rw [found, found']; exact .rfl fun _ => rfl⟩,
        ⟨fun _ => knownChild, by rw [found, found']; exact .rfl fun _ => rfl⟩⟩
    have forward : Preserved expr mid := (both.imp fun _ _ _ preserved => preserved.1).preserved
    have backward : Preserved mid expr :=
      (both.imp fun _ _ _ preserved => preserved.2).symm.preserved
    obtain ⟨constant, found, rfl⟩ :=
      (Expr.collapse_of_isConstant (forward.known known)).1 collapses
    obtain ⟨_, found', rfl⟩ := backward.same constant found
    exact ⟨constant, found', same.asConstant_eq constant⟩

theorem literal_of_isConstant {node : ValueExpr} (optimized : Optimized true (.value node) expr')
    (known : node.isConstant = true) :
    ∃ span constant, expr' = .value (.constant span constant) ∧ node.reduce = .ok constant := by
  obtain ⟨constant, found, rfl⟩ := optimized.exists_asConstant known
  exact ⟨node.span, constant, rfl, found⟩

end Optimized

namespace Expr

open Optimized

/-- The children of a known node can be optimized in one node. -/
private theorem exists_mid (known : expr.isConstant = true)
    (each : ∀ child ∈ expr.children, ∃ child', Optimized true child child') :
    ∃ mid, SameNode (Optimized true) expr mid := by
  have bools {child : BoolExpr} (member : .bool child ∈ expr.children) :
      ∃ child', Optimized true (.bool child) (.bool child') := by
    obtain ⟨_, optimized⟩ := each _ member
    obtain ⟨child', _, rfl⟩ := optimize_bool.1 optimized
    exact ⟨child', optimized⟩
  have values {child : ValueExpr} (member : .value child ∈ expr.children) :
      ∃ child', Optimized true (.value child) (.value child') := by
    obtain ⟨_, optimized⟩ := each _ member
    obtain ⟨child', rfl⟩ := optimized.exists_value
    exact ⟨child', optimized⟩
  cases expr with
  | bool node =>
    cases node
    case constant => exact ⟨_, .leaf rfl⟩
    case binary =>
      obtain ⟨_, first⟩ := bools List.mem_cons_self
      obtain ⟨_, second⟩ := bools (List.mem_cons_of_mem _ List.mem_cons_self)
      exact ⟨_, .connective first second⟩
    case not =>
      obtain ⟨_, only⟩ := bools List.mem_cons_self
      exact ⟨_, .not only⟩
    case comparison =>
      obtain ⟨_, first⟩ := values List.mem_cons_self
      obtain ⟨_, second⟩ := values (List.mem_cons_of_mem _ List.mem_cons_self)
      exact ⟨_, .comparison first second⟩
    case bounds =>
      obtain ⟨_, first⟩ := values List.mem_cons_self
      obtain ⟨_, second⟩ := values (List.mem_cons_of_mem _ List.mem_cons_self)
      obtain ⟨_, third⟩ :=
        values (List.mem_cons_of_mem _ (List.mem_cons_of_mem _ List.mem_cons_self))
      exact ⟨_, .bounds first second third⟩
    case nullTest =>
      obtain ⟨_, only⟩ := values List.mem_cons_self
      exact ⟨_, .nullTest only⟩
    case inList =>
      obtain ⟨_, first⟩ := values List.mem_cons_self
      obtain ⟨_, others⟩ := exists_forall₂ fun node listed =>
        values (List.mem_cons_of_mem _ (List.mem_map_of_mem listed))
      exact ⟨_, .inList first others⟩
    case inVector =>
      obtain ⟨_, first⟩ := values List.mem_cons_self
      obtain ⟨_, second⟩ := values (List.mem_cons_of_mem _ List.mem_cons_self)
      exact ⟨_, .inVector first second⟩
    case wrapper =>
      obtain ⟨_, only⟩ := values List.mem_cons_self
      exact ⟨_, .wrapper only⟩
    all_goals cases known
  | value node =>
    cases node
    case constant => exact ⟨_, .leaf rfl⟩
    case binary =>
      obtain ⟨_, first⟩ := values List.mem_cons_self
      obtain ⟨_, second⟩ := values (List.mem_cons_of_mem _ List.mem_cons_self)
      exact ⟨_, .arithmetic first second⟩
    case unary =>
      obtain ⟨_, only⟩ := values List.mem_cons_self
      exact ⟨_, .unary only⟩
    case cast =>
      obtain ⟨_, only⟩ := values List.mem_cons_self
      exact ⟨_, .cast only⟩
    case conversion =>
      obtain ⟨_, only⟩ := values List.mem_cons_self
      exact ⟨_, .conversion only⟩
    case quantum =>
      obtain ⟨_, only⟩ := values List.mem_cons_self
      exact ⟨_, .quantum only⟩
    case call span name arguments binding =>
      rcases binding with _ | binding
      · cases known
      obtain ⟨_, all⟩ := exists_forall₂ fun node listed => values (List.mem_map_of_mem listed)
      exact ⟨_, .call all⟩
    all_goals cases known

/-- A known expression whose children can be optimized becomes its constant, if it has one. -/
theorem optimized_asConstant {constant : Constant} (known : expr.isConstant = true)
    (found : expr.reduce = .ok constant)
    (each : ∀ child ∈ expr.children, ∃ child', Optimized true child child') :
    Optimized true expr (expr.asConstant constant) := by
  obtain ⟨mid, same⟩ := exists_mid known each
  have preserved : Preserved expr mid := by
    refine (same.imp fun child member child' optimized => ?_).preserved
    obtain ⟨constant, found, rfl⟩ := optimized.exists_asConstant (isConstant_child known member)
    exact ⟨fun _ => isConstant_asConstant,
      by rw [found, reduce_asConstant found]; exact .rfl fun _ => rfl⟩
  have bound : ∀ span name arguments, expr ≠ .value (.call span name arguments none) := by
    rintro span name arguments rfl
    cases known
  have apart : ∀ span name arguments binding, Optimize.optimizesArguments binding.function = false →
      expr = .value (.call span name arguments (some binding)) → mid = expr := by
    rintro span name arguments ⟨function, state⟩ hidden rfl
    cases function <;> cases hidden
    cases known
  obtain ⟨_, found', rfl⟩ := preserved.same constant found
  rw [← same.asConstant_eq constant]
  exact (optimize_eq_collapse same bound apart).trans
    ((collapse_of_isConstant (preserved.known known)).2 ⟨constant, found', rfl⟩)

end Expr

end EventQuery
