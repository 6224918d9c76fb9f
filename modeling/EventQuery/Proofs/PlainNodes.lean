import EventQuery.Analysis.Bind
import EventQuery.Analysis.Validate
import EventQuery.Proofs.Rewriting

/-!
Most nodes mean nothing to binding and to validation: only their children are bound or
validated, and the node stays the same. The other kinds, which are names, calls, calendar
operators and aggregations, have an inversion lemma each.
-/
namespace EventQuery

open Outcome

variable {context : Context} {source expr : Expr}

/-! ### Plain nodes -/

/-- Whether binding and validation look at the children of a node only. -/
def Expr.isPlain : Expr → Bool
  | .bool (.boundary ..) => false
  | .bool (.stepReference ..) => false
  | .value (.path ..) => false
  | .value (.parameter ..) => false
  | .value (.quantum ..) => false
  | .value (.call ..) => false
  | .value (.aggregation ..) => false
  | _ => true

/-! ### Nodes of one kind -/

namespace SameNode

variable {R : Expr → Expr → Prop} {span : Span}

theorem leaf_iff (plain : source.isPlain = true) (childless : source.children = []) :
    SameNode R source expr ↔ source = expr := by
  constructor
  · intro same
    cases same
    case leaf => rfl
    case reference => cases plain
    case call => cases plain
    case aggregation => cases plain
    all_goals cases childless
  · rintro rfl
    exact .leaf childless

theorem connective_iff {op : Connective} {left right : BoolExpr} :
    SameNode R (.bool (.binary span op left right)) expr ↔
      ∃ left', R (.bool left) (.bool left') ∧ ∃ right', R (.bool right) (.bool right') ∧
        .bool (.binary span op left' right') = expr := by
  constructor
  · intro same
    cases same with
    | leaf childless => cases childless
    | connective first second => exact ⟨_, first, _, second, rfl⟩
  · rintro ⟨_, first, _, second, rfl⟩
    exact .connective first second

theorem not_iff {operand : BoolExpr} :
    SameNode R (.bool (.not span operand)) expr ↔
      ∃ operand', R (.bool operand) (.bool operand') ∧ .bool (.not span operand') = expr := by
  constructor
  · intro same
    cases same with
    | leaf childless => cases childless
    | not only => exact ⟨_, only, rfl⟩
  · rintro ⟨_, only, rfl⟩
    exact .not only

theorem comparison_iff {op : Relation} {left right : ValueExpr} :
    SameNode R (.bool (.comparison span op left right)) expr ↔
      ∃ left', R (.value left) (.value left') ∧ ∃ right', R (.value right) (.value right') ∧
        .bool (.comparison span op left' right') = expr := by
  constructor
  · intro same
    cases same with
    | leaf childless => cases childless
    | comparison first second => exact ⟨_, first, _, second, rfl⟩
  · rintro ⟨_, first, _, second, rfl⟩
    exact .comparison first second

theorem bounds_iff {op : BoundsOp} {value lower upper : ValueExpr} :
    SameNode R (.bool (.bounds span op value lower upper)) expr ↔
      ∃ value', R (.value value) (.value value') ∧ ∃ lower', R (.value lower) (.value lower') ∧
        ∃ upper', R (.value upper) (.value upper') ∧
        .bool (.bounds span op value' lower' upper') = expr := by
  constructor
  · intro same
    cases same with
    | leaf childless => cases childless
    | bounds first second third => exact ⟨_, first, _, second, _, third, rfl⟩
  · rintro ⟨_, first, _, second, _, third, rfl⟩
    exact .bounds first second third

theorem nullTest_iff {op : NullTestOp} {operand : ValueExpr} :
    SameNode R (.bool (.nullTest span op operand)) expr ↔
      ∃ operand', R (.value operand) (.value operand') ∧
        .bool (.nullTest span op operand') = expr := by
  constructor
  · intro same
    cases same with
    | leaf childless => cases childless
    | nullTest only => exact ⟨_, only, rfl⟩
  · rintro ⟨_, only, rfl⟩
    exact .nullTest only

theorem inVector_iff {value vector : ValueExpr} :
    SameNode R (.bool (.inVector span value vector)) expr ↔
      ∃ value', R (.value value) (.value value') ∧ ∃ vector', R (.value vector) (.value vector') ∧
        .bool (.inVector span value' vector') = expr := by
  constructor
  · intro same
    cases same with
    | leaf childless => cases childless
    | inVector first second => exact ⟨_, first, _, second, rfl⟩
  · rintro ⟨_, first, _, second, rfl⟩
    exact .inVector first second

theorem wrapper_iff {value : ValueExpr} :
    SameNode R (.bool (.wrapper span value)) expr ↔
      ∃ value', R (.value value) (.value value') ∧ .bool (.wrapper span value') = expr := by
  constructor
  · intro same
    cases same with
    | leaf childless => cases childless
    | wrapper only => exact ⟨_, only, rfl⟩
  · rintro ⟨_, only, rfl⟩
    exact .wrapper only

theorem arithmetic_iff {op : Arithmetic} {left right : ValueExpr} :
    SameNode R (.value (.binary span op left right)) expr ↔
      ∃ left', R (.value left) (.value left') ∧ ∃ right', R (.value right) (.value right') ∧
        .value (.binary span op left' right') = expr := by
  constructor
  · intro same
    cases same with
    | leaf childless => cases childless
    | arithmetic first second => exact ⟨_, first, _, second, rfl⟩
  · rintro ⟨_, first, _, second, rfl⟩
    exact .arithmetic first second

theorem unary_iff {sign : Sign} {operand : ValueExpr} :
    SameNode R (.value (.unary span sign operand)) expr ↔
      ∃ operand', R (.value operand) (.value operand') ∧
        .value (.unary span sign operand') = expr := by
  constructor
  · intro same
    cases same with
    | leaf childless => cases childless
    | unary only => exact ⟨_, only, rfl⟩
  · rintro ⟨_, only, rfl⟩
    exact .unary only

theorem cast_iff {target : DataType} {operand : ValueExpr} :
    SameNode R (.value (.cast span target operand)) expr ↔
      ∃ operand', R (.value operand) (.value operand') ∧
        .value (.cast span target operand') = expr := by
  constructor
  · intro same
    cases same with
    | leaf childless => cases childless
    | cast only => exact ⟨_, only, rfl⟩
  · rintro ⟨_, only, rfl⟩
    exact .cast only

theorem conversion_iff {kind : Conversion} {operand : ValueExpr} :
    SameNode R (.value (.conversion span kind operand)) expr ↔
      ∃ operand', R (.value operand) (.value operand') ∧
        .value (.conversion span kind operand') = expr := by
  constructor
  · intro same
    cases same with
    | leaf childless => cases childless
    | conversion only => exact ⟨_, only, rfl⟩
  · rintro ⟨_, only, rfl⟩
    exact .conversion only

theorem inList_iff {value : ValueExpr} {candidates : List ValueExpr} :
    SameNode R (.bool (.inList span value candidates)) expr ↔
      ∃ value', R (.value value) (.value value') ∧ ∃ candidates',
        List.Forall₂ (fun node node' => R (.value node) (.value node')) candidates candidates' ∧
          .bool (.inList span value' candidates') = expr := by
  constructor
  · intro same
    cases same with
    | leaf childless => cases childless
    | inList first others => exact ⟨_, first, _, others, rfl⟩
  · rintro ⟨_, first, _, others, rfl⟩
    exact .inList first others

end SameNode

theorem SameNode.isPlain_eq {R : Expr → Expr → Prop} (same : SameNode R source expr) :
    expr.isPlain = source.isPlain := by
  cases same <;> rfl

/-- Every child of the second node stems from a child of the first. -/
theorem SameNode.exists_child_of_isPlain {R : Expr → Expr → Prop} (same : SameNode R source expr)
    (plain : source.isPlain = true) :
    ∀ child' ∈ expr.children, ∃ child ∈ source.children, R child child' := by
  have listed : SameNode (fun _ child' => ∃ child ∈ source.children, R child child') source expr :=
    same.imp fun child member _ related => ⟨child, member, related⟩
  refine listed.symm.forall_children ?_
  rintro span name arguments binding _ rfl rfl
  cases plain

theorem Bind.bindAll_eq_ok {nodes nodes' : List ValueExpr} :
    ValueExpr.bindAll context nodes = .ok nodes' ↔
      List.Forall₂ (fun node node' => node.bind context = .ok node') nodes nodes' := by
  induction nodes generalizing nodes' with
  | nil => cases nodes' <;> simp [ValueExpr.bindAll]
  | cons node rest ih =>
    simp only [ValueExpr.bindAll, bind_eq_ok, pure_eq_ok, Stopped.within_eq_ok, ih]
    exact forall₂_cons_eq_ok

/-- The second expression is the first one bound in the context. -/
inductive Expr.BindsIn (context : Context) : Expr → Expr → Prop where
  | bool {node node'} (bound : node.bind context = .ok node') :
    BindsIn context (.bool node) (.bool node')
  | value {node node'} (bound : node.bind context = .ok node') :
    BindsIn context (.value node) (.value node')

namespace Expr.BindsIn

@[simp] theorem bool_iff {node node' : BoolExpr} :
    BindsIn context (.bool node) (.bool node') ↔ node.bind context = .ok node' := by
  constructor
  · intro binds
    cases binds with
    | bool bound => exact bound
  · exact .bool

@[simp] theorem value_iff {node node' : ValueExpr} :
    BindsIn context (.value node) (.value node') ↔ node.bind context = .ok node' := by
  constructor
  · intro binds
    cases binds with
    | value bound => exact bound
  · exact .value

theorem exists_bool {node : BoolExpr} :
    BindsIn context (.bool node) expr ↔
      ∃ node', node.bind context = .ok node' ∧ .bool node' = expr := by
  constructor
  · intro binds
    cases binds with
    | bool bound => exact ⟨_, bound, rfl⟩
  · rintro ⟨_, bound, rfl⟩
    exact .bool bound

theorem exists_value {node : ValueExpr} :
    BindsIn context (.value node) expr ↔
      ∃ node', node.bind context = .ok node' ∧ .value node' = expr := by
  constructor
  · intro binds
    cases binds with
    | value bound => exact ⟨_, bound, rfl⟩
  · rintro ⟨_, bound, rfl⟩
    exact .value bound

theorem iff_bind : BindsIn context source expr ↔ source.bind context = .ok expr := by
  cases source with
  | bool node => simp [exists_bool, Expr.bind]
  | value node => simp [exists_value, Expr.bind]

theorem sameNode_iff (plain : source.isPlain = true) :
    BindsIn context source expr ↔ SameNode (BindsIn context) source expr := by
  cases source with
  | bool node =>
    rw [exists_bool]
    cases node
    case boundary => cases plain
    case stepReference => cases plain
    case constant =>
      rw [SameNode.leaf_iff plain rfl]
      simp [BoolExpr.bind]
    case bounds => simp [BoolExpr.bind, SameNode.bounds_iff, and_assoc]
    all_goals
      simp [BoolExpr.bind, Bind.bindAll_eq_ok, SameNode.connective_iff, SameNode.not_iff,
        SameNode.comparison_iff, SameNode.nullTest_iff, SameNode.inList_iff,
        SameNode.inVector_iff, SameNode.wrapper_iff]
  | value node =>
    rw [exists_value]
    cases node
    case constant =>
      rw [SameNode.leaf_iff plain rfl]
      simp [ValueExpr.bind]
    case now =>
      rw [SameNode.leaf_iff plain rfl]
      simp [ValueExpr.bind]
    case binary => simp [ValueExpr.bind, SameNode.arithmetic_iff]
    case unary => simp [ValueExpr.bind, SameNode.unary_iff]
    case cast => simp [ValueExpr.bind, SameNode.cast_iff]
    case conversion => simp [ValueExpr.bind, SameNode.conversion_iff]
    all_goals cases plain

end Expr.BindsIn

/-- The second expression is the first one validated, whatever its type and its point. -/
inductive Expr.ValidatesTo [ZoneTable] : Expr → Expr → Prop where
  | bool {node node'} (valid : node.validate = .ok node') : ValidatesTo (.bool node) (.bool node')
  | value {node node'} (valid : node.validate = .ok node') :
    ValidatesTo (.value node) (.value node')

theorem Validate.validateAll_eq_ok [ZoneTable] {nodes nodes' : List ValueExpr} :
    ValueExpr.validateAll nodes = .ok nodes' ↔
      List.Forall₂ (fun node node' => node.validate = .ok node') nodes nodes' := by
  induction nodes generalizing nodes' with
  | nil => cases nodes' <;> simp [ValueExpr.validateAll]
  | cons node rest ih =>
    simp only [ValueExpr.validateAll, bind_eq_ok, pure_eq_ok, Stopped.within_eq_ok, ih]
    exact forall₂_cons_eq_ok

namespace Expr.ValidatesTo

@[simp] theorem bool_iff [ZoneTable] {node node' : BoolExpr} :
    ValidatesTo (.bool node) (.bool node') ↔ node.validate = .ok node' := by
  constructor
  · intro validates
    cases validates with
    | bool valid => exact valid
  · exact .bool

@[simp] theorem value_iff [ZoneTable] {node node' : ValueExpr} :
    ValidatesTo (.value node) (.value node') ↔ node.validate = .ok node' := by
  constructor
  · intro validates
    cases validates with
    | value valid => exact valid
  · exact .value

theorem exists_bool [ZoneTable] {node : BoolExpr} :
    ValidatesTo (.bool node) expr ↔ ∃ node', node.validate = .ok node' ∧ .bool node' = expr := by
  constructor
  · intro validates
    cases validates with
    | bool valid => exact ⟨_, valid, rfl⟩
  · rintro ⟨_, valid, rfl⟩
    exact .bool valid

theorem exists_value [ZoneTable] {node : ValueExpr} :
    ValidatesTo (.value node) expr ↔ ∃ node', node.validate = .ok node' ∧ .value node' = expr := by
  constructor
  · intro validates
    cases validates with
    | value valid => exact ⟨_, valid, rfl⟩
  · rintro ⟨_, valid, rfl⟩
    exact .value valid

theorem sameNode_iff [ZoneTable] (plain : source.isPlain = true) :
    ValidatesTo source expr ↔ SameNode ValidatesTo source expr := by
  cases source with
  | bool node =>
    rw [exists_bool]
    cases node
    case boundary => cases plain
    case stepReference => cases plain
    case constant =>
      rw [SameNode.leaf_iff plain rfl]
      simp [BoolExpr.validate]
    case bounds => simp [BoolExpr.validate, SameNode.bounds_iff, and_assoc]
    all_goals
      simp [BoolExpr.validate, Validate.validateAll_eq_ok, SameNode.connective_iff,
        SameNode.not_iff, SameNode.comparison_iff, SameNode.nullTest_iff, SameNode.inList_iff,
        SameNode.inVector_iff, SameNode.wrapper_iff]
  | value node =>
    rw [exists_value]
    cases node
    case constant =>
      rw [SameNode.leaf_iff plain rfl]
      simp [ValueExpr.validate]
    case now =>
      rw [SameNode.leaf_iff plain rfl]
      simp [ValueExpr.validate]
    case binary => simp [ValueExpr.validate, SameNode.arithmetic_iff]
    case unary => simp [ValueExpr.validate, SameNode.unary_iff]
    case cast => simp [ValueExpr.validate, SameNode.cast_iff]
    case conversion => simp [ValueExpr.validate, SameNode.conversion_iff]
    all_goals cases plain

end Expr.ValidatesTo

end EventQuery
