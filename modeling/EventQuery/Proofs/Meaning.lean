import EventQuery.Proofs.Reduction

/-!
Optimization preserves meaning. An open expression has a value once its leaves have:
they are read from a valuation, and what remains is reduced like any constant
expression. What is known evaluates to what it reduces to, and whatever an expression evaluates
to, the optimized expression does too.
-/
namespace EventQuery

open Outcome

/-- Values for what is known at run time only. -/
structure Valuation where
  path : String → Constant
  parameter : String → Constant
  now : Constant
  boundary : Edge → String → Bool
  step : Int64 → Bool

/-! ### Evaluation -/

mutual

/-- The predicate with its leaves read from a valuation. -/
def BoolExpr.read (values : Valuation) : BoolExpr → BoolExpr
  | .constant span value => .constant span value
  | .binary span op left right => .binary span op (left.read values) (right.read values)
  | .not span operand => .not span (operand.read values)
  | .comparison span op left right => .comparison span op (left.read values) (right.read values)
  | .bounds span op value lower upper =>
    .bounds span op (value.read values) (lower.read values) (upper.read values)
  | .nullTest span op operand => .nullTest span op (operand.read values)
  | .inList span value candidates =>
    .inList span (value.read values) (ValueExpr.readAll values candidates)
  | .inVector span value vector => .inVector span (value.read values) (vector.read values)
  | .wrapper span value => .wrapper span (value.read values)
  | .boundary span edge relation _ => .constant span (.boolean (values.boundary edge relation))
  | .stepReference span step => .constant span (.boolean (values.step step))

/-- The value with its leaves read from a valuation. -/
def ValueExpr.read (values : Valuation) : ValueExpr → ValueExpr
  | .constant span value => .constant span value
  | .path span name _ => .constant span (values.path name)
  | .parameter span name _ => .constant span (values.parameter name)
  | .binary span op left right => .binary span op (left.read values) (right.read values)
  | .unary span sign operand => .unary span sign (operand.read values)
  | .cast span target operand => .cast span target (operand.read values)
  | .conversion span kind operand => .conversion span kind (operand.read values)
  | .quantum span taken operand zone timeZone =>
    .quantum span taken (operand.read values) zone timeZone
  | .call span name arguments binding =>
    .call span name (ValueExpr.readAll values arguments) binding
  | .aggregation span op count target condition scope quanta scopePath =>
    .aggregation span op count target condition scope quanta scopePath
  | .now span => .constant span values.now

def ValueExpr.readAll (values : Valuation) : List ValueExpr → List ValueExpr
  | [] => []
  | node :: rest => node.read values :: ValueExpr.readAll values rest

end

namespace Expr

def read (values : Valuation) : Expr → Expr
  | bool node => bool (node.read values)
  | value node => value (node.read values)

/-- The constant of an expression under a valuation. Rows are not part of it, so
aggregations and memberships in a vector have none. -/
def evaluate (values : Valuation) (expr : Expr) : Except Diagnostic Constant :=
  (expr.read values).reduce

end Expr

/-! ### Known parts -/

private theorem readAll_of_known {values : Valuation} {nodes : List ValueExpr}
    (children : ∀ child ∈ nodes.map Expr.value, child.isConstant = true → child.read values = child)
    (known : ∀ node ∈ nodes, node.isConstant = true) : ValueExpr.readAll values nodes = nodes := by
  induction nodes with
  | nil => rfl
  | cons node rest ih =>
    rw [List.map_cons, List.forall_mem_cons] at children
    rw [List.forall_mem_cons] at known
    rw [ValueExpr.readAll, Expr.value.inj (children.1 known.1), ih children.2 known.2]

private theorem BoolExpr.read_of_known {values : Valuation} {node : BoolExpr}
    (children : ∀ child ∈ node.children, child.isConstant = true → child.read values = child)
    (known : node.isConstant = true) : node.read values = node := by
  cases node <;>
    simp only [BoolExpr.children, List.forall_mem_cons, Expr.isConstant, Expr.read,
      Expr.bool.injEq, Expr.value.injEq, BoolExpr.isConstant, Bool.and_eq_true] at children known
  case constant => rfl
  case boundary => cases known
  case stepReference => cases known
  case binary => rw [BoolExpr.read, children.1 known.1, children.2.1 known.2]
  case not => rw [BoolExpr.read, children.1 known]
  case comparison => rw [BoolExpr.read, children.1 known.1, children.2.1 known.2]
  case bounds =>
    rw [BoolExpr.read, children.1 known.1.1, children.2.1 known.1.2, children.2.2.1 known.2]
  case nullTest => rw [BoolExpr.read, children.1 known]
  case inList =>
    rw [BoolExpr.read, children.1 known.1,
      readAll_of_known children.2 (Reduce.forall_isConstant known.2)]
  case inVector => rw [BoolExpr.read, children.1 known.1, children.2.1 known.2]
  case wrapper => rw [BoolExpr.read, children.1 known]

private theorem ValueExpr.read_of_known {values : Valuation} {node : ValueExpr}
    (children : ∀ child ∈ node.children, child.isConstant = true → child.read values = child)
    (known : node.isConstant = true) : node.read values = node := by
  cases node
  case constant => rfl
  case path => cases known
  case parameter => cases known
  case aggregation => cases known
  case now => cases known
  case binary =>
    simp only [ValueExpr.children, List.forall_mem_cons, Expr.isConstant, Expr.read,
      Expr.value.injEq, ValueExpr.isConstant, Bool.and_eq_true] at children known
    rw [ValueExpr.read, children.1 known.1, children.2.1 known.2]
  case call span name arguments binding =>
    rcases binding with _ | binding
    · cases known
    · rw [ValueExpr.read, readAll_of_known children
        (Reduce.forall_isConstant (Reduce.all_of_isConstantCall known))]
  all_goals
    rw [ValueExpr.read, Expr.value.inj (children _ List.mem_cons_self known)]

namespace Expr

/-- What is known has no leaves to read. -/
theorem read_of_isConstant (values : Valuation) {expr : Expr} (known : expr.isConstant = true) :
    expr.read values = expr := by
  induction expr using Expr.byChildren with
  | node expr ih =>
    cases expr with
    | bool node => exact congrArg bool (BoolExpr.read_of_known ih known)
    | value node => exact congrArg value (ValueExpr.read_of_known ih known)

/-- Evaluation extends reduction: what is known does not depend on the valuation. -/
theorem evaluate_of_isConstant (values : Valuation) {expr : Expr}
    (known : expr.isConstant = true) : expr.evaluate values = expr.reduce := by
  rw [evaluate, read_of_isConstant values known]

end Expr

/-! ### One node -/

variable {fold : Bool} {values : Valuation} {expr expr' : Expr}

private theorem readAll_preserved {nodes nodes' : List ValueExpr}
    (preserved : List.Forall₂ (fun node node' =>
      Preserved ((Expr.value node).read values) ((Expr.value node').read values)) nodes nodes') :
    List.Forall₂ (fun node node' => Preserved (.value node) (.value node'))
      (ValueExpr.readAll values nodes) (ValueExpr.readAll values nodes') := by
  induction preserved with
  | nil => exact .nil
  | cons first _ ih => exact .cons first ih

/-- Reading goes into the children, so a node under a valuation is preserved if its
children under the valuation are. An aggregation has no value under any. -/
theorem SameNode.preserved_read
    (same : SameNode (fun child child' => Preserved (child.read values) (child'.read values))
      expr expr') : Preserved (expr.read values) (expr'.read values) := by
  cases same
  case leaf => exact .rfl
  case reference => exact .rfl
  case connective first second => exact SameNode.preserved (.connective first second)
  case not only => exact SameNode.preserved (.not only)
  case comparison first second => exact SameNode.preserved (.comparison first second)
  case bounds first second third => exact SameNode.preserved (.bounds first second third)
  case nullTest only => exact SameNode.preserved (.nullTest only)
  case inList first others => exact SameNode.preserved (.inList first (readAll_preserved others))
  case inVector first second => exact SameNode.preserved (.inVector first second)
  case wrapper only => exact SameNode.preserved (.wrapper only)
  case arithmetic first second => exact SameNode.preserved (.arithmetic first second)
  case unary only => exact SameNode.preserved (.unary only)
  case cast only => exact SameNode.preserved (.cast only)
  case conversion only => exact SameNode.preserved (.conversion only)
  case quantum only => exact SameNode.preserved (.quantum only)
  case call all => exact SameNode.preserved (.call (readAll_preserved all))
  case aggregation => exact ⟨fun known => absurd known Bool.false_ne_true, .error⟩

namespace Connective

/-- The truth of the connective, when that of both sides is known. -/
def truth : Connective → Bool → Bool → Bool
  | and => Bool.and
  | or => Bool.or

theorem truth_comm (op : Connective) (first second : Bool) :
    op.truth first second = op.truth second first := by
  cases op
  · exact Bool.and_comm ..
  · exact Bool.or_comm ..

theorem truth_absorbing (op : Connective) (other : Bool) :
    op.truth op.absorbing other = op.absorbing := by
  cases op
  · exact Bool.false_and other
  · exact Bool.true_or other

theorem truth_neutral (op : Connective) (other : Bool) : op.truth op.neutral other = other := by
  cases op
  · exact Bool.true_and other
  · exact Bool.false_or other

end Connective

namespace Folded

private theorem reduce_literal {node : BoolExpr} {truth found : Bool}
    (literal : node.constant? = some truth) (reduces : (node.read values).reduce = .ok found) :
    found = truth := by
  obtain ⟨span, rfl⟩ := BoolExpr.constant?_eq_some literal
  exact (Except.ok.inj reduces).symm

private theorem reduce_connective {span : Span} {op : Connective} {left right : BoolExpr}
    {truth : Bool} (reduces : (BoolExpr.binary span op left right).reduce = .ok truth) :
    ∃ first second, left.reduce = .ok first ∧ right.reduce = .ok second ∧
      truth = op.truth first second := by
  simp only [BoolExpr.reduce, bind_eq_ok, pure_eq_ok] at reduces
  obtain ⟨first, left, second, right, rfl⟩ := reduces
  exact ⟨first, second, left, right, by cases op <;> rfl⟩

/-- What takes the place of a node has the value of the node under every valuation. -/
theorem preserved_read (folded : Folded fold expr expr') :
    Preserved (expr.read values) (expr'.read values) := by
  cases folded
  case kept => exact .rfl
  case predicate node truth known found =>
    refine .of_truth (fun _ => rfl) ?_
    have unread : node.read values = node :=
      Expr.bool.inj (Expr.read_of_isConstant values
        (show (Expr.bool node).isConstant = true from known))
    rw [unread, found]
    exact .ok rfl
  case value node constant known found =>
    refine ⟨fun _ => rfl, ?_⟩
    have unread : (Expr.value node).read values = .value node :=
      Expr.read_of_isConstant values known
    rw [unread, show (Expr.value node).reduce = .ok constant from found]
    exact .ok rfl
  case absorbed span op left right decided =>
    refine .of_truth (fun _ => rfl) fun truth reduces => ⟨op.absorbing, rfl, ?_⟩
    obtain ⟨first, second, left, right, rfl⟩ := reduce_connective reduces
    rcases decided with literal | literal
    · rw [reduce_literal literal left, Connective.truth_absorbing]
    · rw [reduce_literal literal right, Connective.truth_comm, Connective.truth_absorbing]
  case second span op left right neutral =>
    refine .of_truth (fun known => ?_) fun truth reduces => ?_
    · simp only [BoolExpr.read, BoolExpr.isConstant, Bool.and_eq_true] at known
      exact known.2
    · obtain ⟨first, second, left, right, rfl⟩ := reduce_connective reduces
      exact ⟨second, right, by rw [reduce_literal neutral left, Connective.truth_neutral]⟩
  case first span op left right neutral =>
    refine .of_truth (fun known => ?_) fun truth reduces => ?_
    · simp only [BoolExpr.read, BoolExpr.isConstant, Bool.and_eq_true] at known
      exact known.1
    · obtain ⟨first, second, left, right, rfl⟩ := reduce_connective reduces
      refine ⟨first, left, ?_⟩
      rw [reduce_literal neutral right, Connective.truth_comm, Connective.truth_neutral]
  case doubleNegation span span' operand =>
    refine .of_truth id fun truth reduces => ?_
    simp only [BoolExpr.read, BoolExpr.reduce, bind_eq_ok, pure_eq_ok] at reduces
    obtain ⟨_, ⟨inner, found, rfl⟩, rfl⟩ := reduces
    exact ⟨inner, found, Bool.not_not inner⟩

end Folded

/-! ### Whole expressions -/

theorem Optimized.preserved_read (optimized : Optimized fold expr expr') :
    Preserved (expr.read values) (expr'.read values) := by
  induction expr using Expr.byChildren generalizing expr' with
  | node expr ih =>
    obtain ⟨middle, same, folded⟩ := optimized.inversion
    have children := same.imp fun child member child' optimized => ih child member optimized
    exact children.preserved_read.trans folded.preserved_read

/-- Evaluation extends reduction, and optimization keeps it: what is known has the constant that
it reduces to, and under every valuation an optimized expression has the constant, or the truth
value, that the expression had. -/
theorem evaluate_optimize (values : Valuation) (fold : Bool) (expr : Expr) :
    (expr.isConstant = true → expr.evaluate values = expr.reduce) ∧
      ∀ value expr', expr.evaluate values = .ok value → expr.optimize fold = .ok expr' →
        expr'.evaluate values = .ok value := by
  refine ⟨expr.evaluate_of_isConstant values, fun value expr' evaluates optimized => ?_⟩
  have preserved : Preserved (expr.read values) (expr'.read values) :=
    Optimized.preserved_read optimized
  obtain ⟨value', found, same⟩ := preserved.same value evaluates
  exact same ▸ found

/-- `1 + 2`. -/
private def sum : ValueExpr :=
  .ofBinary .add (.ofConstant (.integer 1)) (.ofConstant (.integer 2))

/-- `TRUE AND NOT NOT $limit < 1 + 2`. -/
private def limited : BoolExpr :=
  .ofBinary .and (.ofTruth true)
    (.ofNot (.ofNot (.ofComparison .lt (.ofParameter "limit") sum)))

private def limitTwo : Valuation :=
  ⟨fun _ => .null, fun _ => .integer 2, .datetime 0, fun _ _ => false, fun _ => false⟩

/-- What is left of the condition is `$limit < 3`, and it holds of the limit 2. -/
theorem evaluate_optimize_limited :
    (Expr.value sum).evaluate limitTwo = (Expr.value sum).reduce ∧
      (Expr.bool (.ofComparison .lt (.ofParameter "limit") (.ofConstant (.long 3)))).evaluate
        limitTwo = .ok (.boolean true) := by
  have evaluates : (Expr.bool limited).evaluate limitTwo = .ok (.boolean true) := rfl
  have optimized : (Expr.bool limited).optimize true =
      .ok (.bool (.ofComparison .lt (.ofParameter "limit") (.ofConstant (.long 3)))) := rfl
  exact ⟨(evaluate_optimize limitTwo true (.value sum)).1 rfl,
    (evaluate_optimize limitTwo true (.bool limited)).2 _ _ evaluates optimized⟩

end EventQuery
