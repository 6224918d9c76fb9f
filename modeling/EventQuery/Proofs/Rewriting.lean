import EventQuery.Analysis.Optimize
import EventQuery.Proofs.Outcome
import EventQuery.Proofs.Tree

/-!
What optimization can do to one node. The children are optimized first, which leaves
the kind of the node alone (`SameNode`), and then the node may give way to a constant,
to one of its operands, or to what stands below two negations (`Folded`). Every proof
about the optimizer is one about these two relations.
-/
namespace EventQuery

/-! ### Nodes that differ in their children -/

/-- Two nodes of one kind with the same data whose children are related in turn. The
argument of a call that names a statement is part of the data. -/
inductive SameNode (R : Expr → Expr → Prop) : Expr → Expr → Prop where
  | leaf {expr} (childless : expr.children = []) : SameNode R expr expr
  | reference {span name arguments binding}
      (hidden : Optimize.optimizesArguments binding.function = false) :
      SameNode R (.value (.call span name arguments (some binding)))
        (.value (.call span name arguments (some binding)))
  | connective {span op left left' right right'} (first : R (.bool left) (.bool left'))
      (second : R (.bool right) (.bool right')) :
      SameNode R (.bool (.binary span op left right)) (.bool (.binary span op left' right'))
  | not {span operand operand'} (only : R (.bool operand) (.bool operand')) :
      SameNode R (.bool (.not span operand)) (.bool (.not span operand'))
  | comparison {span op left left' right right'} (first : R (.value left) (.value left'))
      (second : R (.value right) (.value right')) :
      SameNode R (.bool (.comparison span op left right))
        (.bool (.comparison span op left' right'))
  | bounds {span op value value' lower lower' upper upper'}
      (first : R (.value value) (.value value')) (second : R (.value lower) (.value lower'))
      (third : R (.value upper) (.value upper')) :
      SameNode R (.bool (.bounds span op value lower upper))
        (.bool (.bounds span op value' lower' upper'))
  | nullTest {span op operand operand'} (only : R (.value operand) (.value operand')) :
      SameNode R (.bool (.nullTest span op operand)) (.bool (.nullTest span op operand'))
  | inList {span value value' candidates candidates'} (first : R (.value value) (.value value'))
      (others : List.Forall₂ (fun node node' => R (.value node) (.value node'))
        candidates candidates') :
      SameNode R (.bool (.inList span value candidates)) (.bool (.inList span value' candidates'))
  | inVector {span value value' vector vector'} (first : R (.value value) (.value value'))
      (second : R (.value vector) (.value vector')) :
      SameNode R (.bool (.inVector span value vector)) (.bool (.inVector span value' vector'))
  | wrapper {span value value'} (only : R (.value value) (.value value')) :
      SameNode R (.bool (.wrapper span value)) (.bool (.wrapper span value'))
  | arithmetic {span op left left' right right'} (first : R (.value left) (.value left'))
      (second : R (.value right) (.value right')) :
      SameNode R (.value (.binary span op left right)) (.value (.binary span op left' right'))
  | unary {span sign operand operand'} (only : R (.value operand) (.value operand')) :
      SameNode R (.value (.unary span sign operand)) (.value (.unary span sign operand'))
  | cast {span target operand operand'} (only : R (.value operand) (.value operand')) :
      SameNode R (.value (.cast span target operand)) (.value (.cast span target operand'))
  | conversion {span kind operand operand'} (only : R (.value operand) (.value operand')) :
      SameNode R (.value (.conversion span kind operand))
        (.value (.conversion span kind operand'))
  | quantum {span taken operand operand' zone timeZone}
      (only : R (.value operand) (.value operand')) :
      SameNode R (.value (.quantum span taken operand zone timeZone))
        (.value (.quantum span taken operand' zone timeZone))
  | call {span name arguments arguments' binding}
      (all : List.Forall₂ (fun node node' => R (.value node) (.value node'))
        arguments arguments') :
      SameNode R (.value (.call span name arguments (some binding)))
        (.value (.call span name arguments' (some binding)))
  | aggregation {span op count count' target target' condition condition' scope quanta quanta'
        scopePath}
      (counted : Option.Rel (fun node node' => R (.value node) (.value node')) count count')
      (only : R (.value target) (.value target'))
      (met : Option.Rel (fun node node' => R (.bool node) (.bool node')) condition condition')
      (lasting : Option.Rel (fun node node' => R (.value node) (.value node')) quanta quanta') :
      SameNode R (.value (.aggregation span op count target condition scope quanta scopePath))
        (.value (.aggregation span op count' target' condition' scope quanta' scopePath))

namespace SameNode

variable {R S : Expr → Expr → Prop} {expr expr' : Expr}

/-- The relation between the children may be replaced by one that follows from it for
the children of this node. -/
theorem imp (same : SameNode R expr expr')
    (weaker : ∀ child ∈ expr.children, ∀ child', R child child' → S child child') :
    SameNode S expr expr' := by
  cases same <;> simp only [Expr.children, BoolExpr.children, ValueExpr.children, List.mem_cons,
    List.mem_append, List.mem_map, List.not_mem_nil, or_false, forall_eq_or_imp,
    forall_eq] at weaker
  case leaf childless => exact .leaf childless
  case reference hidden => exact .reference hidden
  case connective first second => exact .connective (weaker.1 _ first) (weaker.2 _ second)
  case not only => exact .not (weaker _ only)
  case comparison first second => exact .comparison (weaker.1 _ first) (weaker.2 _ second)
  case bounds first second third =>
    exact .bounds (weaker.1 _ first) (weaker.2.1 _ second) (weaker.2.2 _ third)
  case nullTest only => exact .nullTest (weaker _ only)
  case inList first others =>
    exact .inList (weaker.1 _ first)
      (forall₂_imp_of_mem (fun part listed _ => weaker.2 _ ⟨part, listed, rfl⟩ _) others)
  case inVector first second => exact .inVector (weaker.1 _ first) (weaker.2 _ second)
  case wrapper only => exact .wrapper (weaker _ only)
  case arithmetic first second => exact .arithmetic (weaker.1 _ first) (weaker.2 _ second)
  case unary only => exact .unary (weaker _ only)
  case cast only => exact .cast (weaker _ only)
  case conversion only => exact .conversion (weaker _ only)
  case quantum only => exact .quantum (weaker _ only)
  case call all =>
    exact .call (forall₂_imp_of_mem (fun part listed _ => weaker _ ⟨part, listed, rfl⟩ _) all)
  case aggregation counted only met lasting =>
    refine .aggregation (rel_imp_of_mem (fun part found _ => weaker _ ?_ _) counted)
      (weaker _ (by simp) _ only) (rel_imp_of_mem (fun part found _ => weaker _ ?_ _) met)
      (rel_imp_of_mem (fun part found _ => weaker _ ?_ _) lasting)
    · exact .inl (.inl ⟨part, by simpa using found, rfl⟩)
    · exact .inl (.inr (.inr ⟨part, by simpa using found, rfl⟩))
    · exact .inr ⟨part, by simpa using found, rfl⟩

private theorem rel_flip {α β : Type} {R : α → β → Prop} {part : Option α} {part' : Option β}
    (related : Option.Rel R part part') : Option.Rel (flip R) part' part := by
  cases related with
  | none => exact .none
  | some related => exact .some related

theorem symm (same : SameNode R expr expr') : SameNode (flip R) expr' expr := by
  cases same
  case leaf childless => exact .leaf childless
  case reference hidden => exact .reference hidden
  case connective first second => exact .connective first second
  case not only => exact .not only
  case comparison first second => exact .comparison first second
  case bounds first second third => exact .bounds first second third
  case nullTest only => exact .nullTest only
  case inList first others => exact .inList first (List.Forall₂.flip others)
  case inVector first second => exact .inVector first second
  case wrapper only => exact .wrapper only
  case arithmetic first second => exact .arithmetic first second
  case unary only => exact .unary only
  case cast only => exact .cast only
  case conversion only => exact .conversion only
  case quantum only => exact .quantum only
  case call all => exact .call (List.Forall₂.flip all)
  case aggregation counted only met lasting =>
    exact .aggregation (rel_flip counted) only (rel_flip met) (rel_flip lasting)

private theorem forall_of_forall₂ {α β : Type} {P : α → Prop} {parts : List α} {parts' : List β}
    (related : List.Forall₂ (fun part _ => P part) parts parts') : ∀ part ∈ parts, P part := by
  induction related with
  | nil => exact List.forall_mem_nil P
  | cons first _ ih => exact List.forall_mem_cons.2 ⟨first, ih⟩

private theorem forall_of_rel {α β : Type} {P : α → Prop} {part : Option α} {part' : Option β}
    (related : Option.Rel (fun part _ => P part) part part') :
    ∀ found, part = some found → P found := by
  rintro found rfl
  cases related with
  | some related => exact related

/-- What the relation says about the first of two children holds of every child, if it
holds of an argument that is part of the data of its node, which then stays as it is. -/
theorem forall_children {P : Expr → Prop} (same : SameNode (fun child _ => P child) expr expr')
    (reference : ∀ span name arguments binding,
      Optimize.optimizesArguments binding.function = false →
        expr = .value (.call span name arguments (some binding)) → expr' = expr →
          ∀ child ∈ expr.children, P child) :
    ∀ child ∈ expr.children, P child := by
  cases same
  case leaf childless =>
    rw [childless]
    exact List.forall_mem_nil P
  case reference hidden => exact reference _ _ _ _ hidden rfl rfl
  case call all => exact List.forall_mem_map.2 (forall_of_forall₂ all)
  case inList first others =>
    exact List.forall_mem_cons.2 ⟨first, List.forall_mem_map.2 (forall_of_forall₂ others)⟩
  case aggregation counted only met lasting =>
    intro child member
    simp only [Expr.children, ValueExpr.children, List.mem_append, List.mem_cons, List.mem_map,
      Option.mem_toList] at member
    rcases member with (⟨node, found, rfl⟩ | rfl | ⟨node, found, rfl⟩) | ⟨node, found, rfl⟩
    · exact forall_of_rel counted node found
    · exact only
    · exact forall_of_rel met node found
    · exact forall_of_rel lasting node found
  all_goals simp_all [Expr.children, BoolExpr.children, ValueExpr.children]

/-- Every child of the second node stems from a child of the first, or is one. -/
theorem exists_child_or_mem (same : SameNode R expr expr') {child' : Expr}
    (member : child' ∈ expr'.children) :
    child' ∈ expr.children ∨ ∃ child ∈ expr.children, R child child' := by
  have listed : SameNode
      (fun _ child' => child' ∈ expr.children ∨ ∃ child ∈ expr.children, R child child')
      expr expr' :=
    same.imp fun child member _ related => .inr ⟨child, member, related⟩
  refine listed.symm.forall_children ?_ child' member
  rintro span name arguments binding _ _ rfl child member
  exact .inl member

/-- What holds everywhere in a node, holds everywhere in one with other children if it holds
there and in these. -/
theorem everywhere {P : Expr → Prop} (same : SameNode R expr expr') (holds : expr.Everywhere P)
    (here : P expr')
    (below : ∀ child ∈ expr.children, ∀ child', R child child' → child'.Everywhere P) :
    expr'.Everywhere P := by
  refine .node here fun child' member => ?_
  rcases same.exists_child_or_mem member with listed | ⟨child, listed, related⟩
  · exact holds.child listed
  · exact below child listed child' related

end SameNode

/-! ### Nodes that give way -/

namespace Connective

/-- The truth value that decides the connective from either side. -/
def absorbing : Connective → Bool
  | and => false
  | or => true

/-- The truth value that leaves the connective to its other side. -/
def neutral (op : Connective) : Bool := !op.absorbing

end Connective

/-- Whether a node is a constant as it stands, of either family. -/
def Expr.isLiteral : Expr → Bool
  | .bool (.constant ..) => true
  | .value (.constant ..) => true
  | _ => false

theorem Expr.exists_of_isLiteral {expr : Expr} (literal : expr.isLiteral = true) :
    ∃ span value, expr = .bool (.constant span value) ∨ expr = .value (.constant span value) := by
  unfold isLiteral at literal
  split at literal
  case h_1 => exact ⟨_, _, .inl rfl⟩
  case h_2 => exact ⟨_, _, .inr rfl⟩
  case h_3 => cases literal

theorem Expr.Everywhere.of_isLiteral {P : Expr → Prop} {expr : Expr}
    (literal : expr.isLiteral = true) (here : P expr) : expr.Everywhere P := by
  obtain ⟨span, value, rfl | rfl⟩ := Expr.exists_of_isLiteral literal
  · exact .node here (List.forall_mem_nil _)
  · exact .node here (List.forall_mem_nil _)

/-- What becomes of a node with optimized children, with folding or without. -/
inductive Folded : Bool → Expr → Expr → Prop where
  /-- With folding, only nodes that are not known at compile time stay. -/
  | kept {fold expr} (unknown : fold = true → expr.isConstant = true → expr.isLiteral = true) :
      Folded fold expr expr
  | predicate {node truth} (known : node.isConstant = true) (found : node.reduce = .ok truth) :
      Folded true (.bool node) (.bool (.constant node.span (.boolean truth)))
  | value {node constant} (known : node.isConstant = true) (found : node.reduce = .ok constant) :
      Folded true (.value node) (.value (.constant node.span constant))
  | absorbed {span op left right}
      (decided : left.constant? = some op.absorbing ∨ right.constant? = some op.absorbing) :
      Folded true (.bool (.binary span op left right))
        (.bool (.constant span (.boolean op.absorbing)))
  | second {span op left right} (neutral : left.constant? = some op.neutral) :
      Folded true (.bool (.binary span op left right)) (.bool right)
  | first {span op left right} (neutral : right.constant? = some op.neutral) :
      Folded true (.bool (.binary span op left right)) (.bool left)
  | doubleNegation {span span' operand} :
      Folded true (.bool (.not span (.not span' operand))) (.bool operand)

/-- What holds of constants and everywhere in a node holds everywhere in what takes its place. -/
theorem Folded.everywhere {P : Expr → Prop} {fold : Bool} {expr expr' : Expr}
    (folded : Folded fold expr expr') (holds : expr.Everywhere P)
    (literal : ∀ expr, expr.isLiteral = true → P expr) : expr'.Everywhere P := by
  cases folded with
  | kept => exact holds
  | predicate => exact .of_isLiteral rfl (literal _ rfl)
  | value => exact .of_isLiteral rfl (literal _ rfl)
  | absorbed => exact .of_isLiteral rfl (literal _ rfl)
  | second => exact holds.child (List.mem_cons_of_mem _ List.mem_cons_self)
  | first => exact holds.child List.mem_cons_self
  | doubleNegation => exact (holds.child List.mem_cons_self).child List.mem_cons_self

theorem BoolExpr.constant?_eq_some {node : BoolExpr} {truth : Bool}
    (known : node.constant? = some truth) : ∃ span, node = .constant span (.boolean truth) := by
  cases node <;> simp only [BoolExpr.constant?, reduceCtorEq] at known
  case constant span value =>
    cases value <;> simp only [Constant.boolean?, reduceCtorEq, Option.some.injEq] at known
    exact ⟨span, by rw [known]⟩

namespace Optimize

open Outcome

theorem folded_shortCircuit (span : Span) (op : Connective) (left right : BoolExpr)
    (unknown : (BoolExpr.binary span op left right).isConstant = false) :
    Folded true (.bool (.binary span op left right)) (.bool (shortCircuit span op left right)) := by
  unfold shortCircuit
  split
  case h_1 known => exact .absorbed (Or.inl known : _ = some Connective.and.absorbing ∨ _)
  case h_2 known _ => exact .absorbed (Or.inr known : _ ∨ _ = some Connective.and.absorbing)
  case h_3 known => exact .absorbed (Or.inl known : _ = some Connective.or.absorbing ∨ _)
  case h_4 known _ => exact .absorbed (Or.inr known : _ ∨ _ = some Connective.or.absorbing)
  case h_5 known _ => exact .second known
  case h_6 known _ => exact .second known
  case h_7 known _ _ => exact .first known
  case h_8 known _ _ => exact .first known
  case h_9 => exact .kept fun _ known => absurd known (by simp [Expr.isConstant, unknown])

theorem folded_simplified (node : BoolExpr) (unknown : node.isConstant = false) :
    Folded true (.bool node) (.bool (simplified node)) := by
  have stays : Folded true (.bool node) (.bool node) :=
    .kept fun _ known => absurd known (by simp [Expr.isConstant, unknown])
  unfold simplified
  split
  case h_1 span op left right => exact folded_shortCircuit span op left right unknown
  case h_2 => exact .doubleNegation
  case h_3 => exact stays

theorem folded_of_foldBool {fold : Bool} {node node' : BoolExpr}
    (folds : foldBool fold node = .ok node') : Folded fold (.bool node) (.bool node') := by
  unfold foldBool at folds
  split at folds
  case isFalse plain =>
    cases folds
    exact .kept fun folding => absurd folding plain
  case isTrue folding =>
    subst folding
    split at folds
    case h_1 =>
      cases folds
      exact .kept fun _ _ => rfl
    case h_2 =>
      split at folds
      case isTrue known =>
        obtain ⟨truth, found, folds⟩ := bind_eq_ok.1 folds
        cases folds
        exact .predicate known found
      case isFalse unknown =>
        cases folds
        exact folded_simplified node (Bool.eq_false_iff.2 unknown)

theorem folded_of_foldValue {fold : Bool} {node node' : ValueExpr}
    (folds : foldValue fold node = .ok node') : Folded fold (.value node) (.value node') := by
  unfold foldValue at folds
  split at folds
  case isFalse plain =>
    cases folds
    exact .kept fun folding => absurd folding plain
  case isTrue folding =>
    subst folding
    split at folds
    case h_1 =>
      cases folds
      exact .kept fun _ _ => rfl
    case h_2 =>
      split at folds
      case isTrue known =>
        obtain ⟨constant, found, folds⟩ := bind_eq_ok.1 folds
        cases folds
        exact .value known found
      case isFalse unknown =>
        cases folds
        exact .kept fun _ known => absurd known unknown

theorem optimizeAll_eq_ok {fold : Bool} {nodes nodes' : List ValueExpr} :
    ValueExpr.optimizeAll fold nodes = .ok nodes' ↔
      List.Forall₂ (fun node node' => node.optimize fold = .ok node') nodes nodes' := by
  induction nodes generalizing nodes' with
  | nil => cases nodes' <;> simp [ValueExpr.optimizeAll]
  | cons node rest ih =>
    simp only [ValueExpr.optimizeAll, bind_eq_ok, pure_eq_ok, ih]
    exact forall₂_cons_eq_ok

end Optimize

open Optimize Outcome

namespace Expr

theorem optimize_bool {fold : Bool} {node : BoolExpr} {expr' : Expr} :
    (bool node).optimize fold = .ok expr' ↔
      ∃ node', node.optimize fold = .ok node' ∧ bool node' = expr' := by
  simp only [optimize, bind_eq_ok, pure_eq_ok]

theorem optimize_value {fold : Bool} {node : ValueExpr} {expr' : Expr} :
    (value node).optimize fold = .ok expr' ↔
      ∃ node', node.optimize fold = .ok node' ∧ value node' = expr' := by
  simp only [optimize, bind_eq_ok, pure_eq_ok]

end Expr

theorem ValueExpr.optimize_aggregation {fold : Bool} {span : Span} {op : AggregationOp}
    {count quanta : Option ValueExpr} {target : ValueExpr} {condition : Option BoolExpr}
    {scope : Option String} {scopePath : Option Path} :
    (aggregation span op count target condition scope quanta scopePath).optimize fold = (do
      let count ← count.mapM (optimize fold)
      let target ← target.optimize fold
      let condition ← condition.mapM (BoolExpr.optimize fold)
      let quanta ← quanta.mapM (optimize fold)
      foldValue fold (.aggregation span op count target condition scope quanta scopePath)) := by
  cases count <;> cases condition <;> cases quanta <;> rfl

/-- What a node with optimized children becomes. -/
def Expr.collapse (fold : Bool) : Expr → Except Diagnostic Expr
  | .bool node => .bool <$> foldBool fold node
  | .value node => .value <$> foldValue fold node

theorem Expr.folded_of_collapse {fold : Bool} {expr expr' : Expr}
    (collapses : expr.collapse fold = .ok expr') : Folded fold expr expr' := by
  cases expr with
  | bool node =>
    obtain ⟨node', folds, rfl⟩ := map_eq_ok.1 collapses
    exact folded_of_foldBool folds
  | value node =>
    obtain ⟨node', folds, rfl⟩ := map_eq_ok.1 collapses
    exact folded_of_foldValue folds

/-- The first expression is optimized to the second. -/
def Optimized (fold : Bool) (expr expr' : Expr) : Prop := expr.optimize fold = .ok expr'

namespace Optimized

variable {fold : Bool}

@[simp] theorem bool_iff {node node' : BoolExpr} :
    Optimized fold (.bool node) (.bool node') ↔ node.optimize fold = .ok node' := by
  simp [Optimized, Expr.optimize_bool]

@[simp] theorem value_iff {node node' : ValueExpr} :
    Optimized fold (.value node) (.value node') ↔ node.optimize fold = .ok node' := by
  simp [Optimized, Expr.optimize_value]

private theorem leaf {expr : Expr} (childless : expr.children = [])
    (stays : expr.collapse fold = .ok expr) :
    ∃ mid, SameNode (Optimized fold) expr mid ∧ mid.collapse fold = .ok expr :=
  ⟨expr, .leaf childless, stays⟩

private theorem of_bool {node node' : BoolExpr} (optimized : node.optimize fold = .ok node') :
    ∃ mid, SameNode (Optimized fold) (.bool node) mid ∧ mid.collapse fold = .ok (.bool node') := by
  cases node <;> simp only [BoolExpr.optimize, bind_eq_ok, Except.ok.injEq] at optimized
  case constant => subst optimized; exact leaf rfl (by cases fold <;> rfl)
  case boundary => subst optimized; exact leaf rfl (by cases fold <;> rfl)
  case stepReference => subst optimized; exact leaf rfl (by cases fold <;> rfl)
  case binary =>
    obtain ⟨left, first, right, second, folds⟩ := optimized
    exact ⟨_, .connective (by simpa) (by simpa), map_eq_ok.2 ⟨_, folds, rfl⟩⟩
  case not =>
    obtain ⟨operand, only, folds⟩ := optimized
    exact ⟨_, .not (by simpa), map_eq_ok.2 ⟨_, folds, rfl⟩⟩
  case comparison =>
    obtain ⟨left, first, right, second, folds⟩ := optimized
    exact ⟨_, .comparison (by simpa) (by simpa), map_eq_ok.2 ⟨_, folds, rfl⟩⟩
  case bounds =>
    obtain ⟨value, first, lower, second, upper, third, folds⟩ := optimized
    exact ⟨_, .bounds (by simpa) (by simpa) (by simpa), map_eq_ok.2 ⟨_, folds, rfl⟩⟩
  case nullTest =>
    obtain ⟨operand, only, folds⟩ := optimized
    exact ⟨_, .nullTest (by simpa), map_eq_ok.2 ⟨_, folds, rfl⟩⟩
  case inList =>
    obtain ⟨value, first, candidates, others, folds⟩ := optimized
    exact ⟨_, .inList (by simpa) (by simpa using optimizeAll_eq_ok.1 others),
      map_eq_ok.2 ⟨_, folds, rfl⟩⟩
  case inVector =>
    obtain ⟨value, first, vector, second, folds⟩ := optimized
    exact ⟨_, .inVector (by simpa) (by simpa), map_eq_ok.2 ⟨_, folds, rfl⟩⟩
  case wrapper =>
    obtain ⟨value, only, folds⟩ := optimized
    exact ⟨_, .wrapper (by simpa), map_eq_ok.2 ⟨_, folds, rfl⟩⟩

private theorem of_value {node node' : ValueExpr} (optimized : node.optimize fold = .ok node') :
    ∃ mid, SameNode (Optimized fold) (.value node) mid ∧ mid.collapse fold = .ok (.value node') := by
  cases node
  case constant =>
    cases optimized
    exact leaf rfl (by cases fold <;> rfl)
  case path =>
    cases optimized
    exact leaf rfl (by cases fold <;> rfl)
  case parameter =>
    cases optimized
    exact leaf rfl (by cases fold <;> rfl)
  case now =>
    cases optimized
    exact leaf rfl (by cases fold <;> rfl)
  case binary =>
    simp only [ValueExpr.optimize, bind_eq_ok] at optimized
    obtain ⟨left, first, right, second, folds⟩ := optimized
    exact ⟨_, .arithmetic (by simpa) (by simpa), map_eq_ok.2 ⟨_, folds, rfl⟩⟩
  case unary =>
    simp only [ValueExpr.optimize, bind_eq_ok] at optimized
    obtain ⟨operand, only, folds⟩ := optimized
    exact ⟨_, .unary (by simpa), map_eq_ok.2 ⟨_, folds, rfl⟩⟩
  case cast =>
    simp only [ValueExpr.optimize, bind_eq_ok] at optimized
    obtain ⟨operand, only, folds⟩ := optimized
    exact ⟨_, .cast (by simpa), map_eq_ok.2 ⟨_, folds, rfl⟩⟩
  case conversion =>
    simp only [ValueExpr.optimize, bind_eq_ok] at optimized
    obtain ⟨operand, only, folds⟩ := optimized
    exact ⟨_, .conversion (by simpa), map_eq_ok.2 ⟨_, folds, rfl⟩⟩
  case quantum =>
    simp only [ValueExpr.optimize, bind_eq_ok] at optimized
    obtain ⟨operand, only, folds⟩ := optimized
    exact ⟨_, .quantum (by simpa), map_eq_ok.2 ⟨_, folds, rfl⟩⟩
  case call span name arguments binding =>
    rcases binding with _ | binding
    · cases optimized
    simp only [ValueExpr.optimize] at optimized
    split at optimized
    case isTrue =>
      obtain ⟨arguments', all, folds⟩ := bind_eq_ok.1 optimized
      exact ⟨_, .call (by simpa using optimizeAll_eq_ok.1 all), map_eq_ok.2 ⟨_, folds, rfl⟩⟩
    case isFalse hidden =>
      exact ⟨_, .reference (Bool.eq_false_iff.2 hidden), map_eq_ok.2 ⟨_, optimized, rfl⟩⟩
  case aggregation span op count target condition scope quanta scopePath =>
    simp only [ValueExpr.optimize_aggregation, bind_eq_ok] at optimized
    obtain ⟨count', counted, target', only, condition', met, quanta', lasting, folds⟩ := optimized
    exact ⟨.value (.aggregation span op count' target' condition' scope quanta' scopePath),
      .aggregation (rel_of_option_mapM counted fun _ _ => value_iff.2) (value_iff.2 only)
        (rel_of_option_mapM met fun _ _ => bool_iff.2)
        (rel_of_option_mapM lasting fun _ _ => value_iff.2), map_eq_ok.2 ⟨_, folds, rfl⟩⟩

/-- What optimization does to a node: its children are optimized, and the node collapses. -/
theorem exists_collapse {expr expr' : Expr} (optimized : Optimized fold expr expr') :
    ∃ mid, SameNode (Optimized fold) expr mid ∧ mid.collapse fold = .ok expr' := by
  cases expr with
  | bool node =>
    obtain ⟨node', optimized, rfl⟩ := Expr.optimize_bool.1 optimized
    exact of_bool (bool_iff.1 optimized)
  | value node =>
    obtain ⟨node', optimized, rfl⟩ := Expr.optimize_value.1 optimized
    exact of_value (value_iff.1 optimized)

private theorem optimize_leaf {expr : Expr} (childless : expr.children = [])
    (bound : ∀ span name arguments, expr ≠ .value (.call span name arguments none)) :
    expr.optimize fold = expr.collapse fold := by
  cases expr with
  | bool node =>
    cases node
    case constant => cases fold <;> rfl
    case boundary => cases fold <;> rfl
    case stepReference => cases fold <;> rfl
    all_goals cases childless
  | value node =>
    cases node
    case constant => cases fold <;> rfl
    case path => cases fold <;> rfl
    case parameter => cases fold <;> rfl
    case now => cases fold <;> rfl
    case call span name arguments binding =>
      rcases binding with _ | binding
      · exact absurd rfl (bound _ _ _)
      · obtain rfl := List.map_eq_nil_iff.1 childless
        simp only [Expr.optimize, ValueExpr.optimize, ValueExpr.optimizeAll, Expr.collapse]
        split <;> rfl
    case aggregation => simp [Expr.children, ValueExpr.children] at childless
    all_goals cases childless

/-- A bound node whose children can be optimized collapses. One that names a statement has to keep
its argument. -/
theorem optimize_eq_collapse {expr mid : Expr} (same : SameNode (Optimized fold) expr mid)
    (bound : ∀ span name arguments, expr ≠ .value (.call span name arguments none))
    (reference : ∀ span name arguments binding, optimizesArguments binding.function = false →
      expr = .value (.call span name arguments (some binding)) → mid = expr) :
    expr.optimize fold = mid.collapse fold := by
  cases same with
  | leaf childless => exact optimize_leaf childless bound
  | reference hidden =>
    simp only [Expr.optimize, ValueExpr.optimize, hidden]
    rfl
  | connective first second =>
    rw [bool_iff] at first second
    simp only [Expr.optimize, BoolExpr.optimize, first, second]
    rfl
  | not only =>
    rw [bool_iff] at only
    simp only [Expr.optimize, BoolExpr.optimize, only]
    rfl
  | comparison first second =>
    rw [value_iff] at first second
    simp only [Expr.optimize, BoolExpr.optimize, first, second]
    rfl
  | bounds first second third =>
    rw [value_iff] at first second third
    simp only [Expr.optimize, BoolExpr.optimize, first, second, third]
    rfl
  | nullTest only =>
    rw [value_iff] at only
    simp only [Expr.optimize, BoolExpr.optimize, only]
    rfl
  | inList first others =>
    simp only [value_iff] at first others
    simp only [Expr.optimize, BoolExpr.optimize, first, optimizeAll_eq_ok.2 others]
    rfl
  | inVector first second =>
    rw [value_iff] at first second
    simp only [Expr.optimize, BoolExpr.optimize, first, second]
    rfl
  | wrapper only =>
    rw [value_iff] at only
    simp only [Expr.optimize, BoolExpr.optimize, only]
    rfl
  | arithmetic first second =>
    rw [value_iff] at first second
    simp only [Expr.optimize, ValueExpr.optimize, first, second]
    rfl
  | unary only =>
    rw [value_iff] at only
    simp only [Expr.optimize, ValueExpr.optimize, only]
    rfl
  | cast only =>
    rw [value_iff] at only
    simp only [Expr.optimize, ValueExpr.optimize, only]
    rfl
  | conversion only =>
    rw [value_iff] at only
    simp only [Expr.optimize, ValueExpr.optimize, only]
    rfl
  | quantum only =>
    rw [value_iff] at only
    simp only [Expr.optimize, ValueExpr.optimize, only]
    rfl
  | call all =>
    simp only [value_iff] at all
    simp only [Expr.optimize, ValueExpr.optimize, optimizeAll_eq_ok.2 all]
    split
    case isTrue => rfl
    case isFalse hidden =>
      rw [reference _ _ _ _ (Bool.eq_false_iff.2 hidden) rfl]
      rfl
  | aggregation counted only met lasting =>
    rw [value_iff] at only
    cases counted <;> cases met <;> cases lasting <;>
      simp_all only [value_iff, bool_iff, Expr.optimize, ValueExpr.optimize] <;> rfl

/-- What optimization does to a node, as a relation: the node is folded at last. -/
theorem inversion {expr expr' : Expr} (optimized : Optimized fold expr expr') :
    ∃ mid, SameNode (Optimized fold) expr mid ∧ Folded fold mid expr' := by
  obtain ⟨mid, same, collapses⟩ := optimized.exists_collapse
  exact ⟨mid, same, Expr.folded_of_collapse collapses⟩

/-- What holds of constants, and of a node still when its children are optimized, holds
everywhere after optimization if it did before. -/
theorem everywhere {P : Expr → Prop} {expr expr' : Expr} (optimized : Optimized fold expr expr')
    (holds : expr.Everywhere P)
    (kept : ∀ {expr mid}, SameNode (Optimized fold) expr mid → P expr → P mid)
    (literal : ∀ expr, expr.isLiteral = true → P expr) : expr'.Everywhere P := by
  induction expr using Expr.byChildren generalizing expr' with
  | node expr ih =>
    obtain ⟨mid, same, folded⟩ := optimized.inversion
    refine folded.everywhere (same.everywhere holds (kept same holds.here) ?_) literal
    exact fun child listed child' optimized => ih child listed optimized (holds.child listed)

end Optimized

end EventQuery
