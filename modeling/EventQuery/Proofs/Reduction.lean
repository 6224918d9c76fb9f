import EventQuery.Proofs.Rewriting

/-!
Reduction of a node depends on its children only by what they reduce to. A child may be
replaced by one that is known and has the same constant whenever the first one does;
then the node keeps its constant.
-/
namespace EventQuery

open Outcome

namespace Reduce

/-! ### Operations on constants -/

@[simp] theorem orFault_eq_ok {α : Type} {span : Span} {found : Except ConstantError α} {value : α} :
    orFault span found = .ok value ↔ found = .ok value := by
  cases found <;> simp [orFault, Except.mapError]

theorem quantumConstant_datetime_eq_ok {span : Span} {taken : Quantum} {zone : Option TimeZone}
    {ms : Int64} {constant : Constant} :
    quantumConstant span taken zone (.datetime ms) = .ok constant ↔
      ¬LeavesCalendar (zone.getD .utc) ms.toInt ∧
        quantized taken ms.toInt (zone.getD .utc) = .ok constant := by
  simp only [quantumConstant]
  split
  case isTrue left => exact iff_of_false (fun crashes => by cases crashes) fun stays => stays.1 left
  case isFalse stays => rw [orFault_eq_ok, and_iff_right stays]

/-! ### Calls -/

/-- A call is known only if all its arguments are. -/
theorem all_of_isConstantCall {function : Function} {known : List Bool}
    (constant : isConstantCall function known = true) : known.all id = true := by
  cases function <;> first | exact constant | cases constant

theorem arguments_eq_map (nodes : List ValueExpr) :
    ValueExpr.arguments nodes =
      nodes.map fun node => ⟨node.span, node.isConstant, node.reduce⟩ := by
  induction nodes with
  | nil => rfl
  | cons node rest ih => rw [ValueExpr.arguments, ih, List.map_cons]

theorem areConstant_eq_map (nodes : List ValueExpr) :
    ValueExpr.areConstant nodes = nodes.map ValueExpr.isConstant := by
  induction nodes with
  | nil => rfl
  | cons node rest ih => rw [ValueExpr.areConstant, ih, List.map_cons]

theorem forall_isConstant {nodes : List ValueExpr}
    (known : (ValueExpr.areConstant nodes).all id = true) :
    ∀ node ∈ nodes, node.isConstant = true := by
  simpa [areConstant_eq_map] using known

/-- The second argument is known and has the constant of the first, if that one does. -/
structure Argument.Preserved (argument argument' : Argument) : Prop where
  known : argument.isConstant = true → argument'.isConstant = true
  same : Refines Eq argument.value argument'.value

variable {span : Span} {name : String} {arguments arguments' : List Argument}

theorem constant_refines (preserved : List.Forall₂ Argument.Preserved arguments arguments')
    (index : Nat) :
    Refines Eq (Call.constant ⟨span, name, arguments⟩ index)
      (Call.constant ⟨span, name, arguments'⟩ index) := by
  have related := getElem?_rel preserved index
  simp only [Call.constant]
  generalize arguments[index]? = argument at related
  generalize arguments'[index]? = argument' at related
  cases related with
  | none => exact .error
  | some preserved =>
    rename_i argument argument'
    by_cases known : argument.isConstant = true
    · simp only [known, preserved.known known, if_true]
      exact preserved.same
    · simp only [known]
      exact .error

theorem constantTail_refines (preserved : List.Forall₂ Argument.Preserved arguments arguments') :
    Refines Eq (Call.constantTail ⟨span, name, arguments⟩)
      (Call.constantTail ⟨span, name, arguments'⟩) := by
  simp only [Call.constantTail, preserved.length_eq]
  exact .mapM fun _ _ => constant_refines preserved _

theorem formatted_refines (preserved : List.Forall₂ Argument.Preserved arguments arguments')
    (state : CallState) :
    Refines Eq (formatted ⟨span, name, arguments⟩ state)
      (formatted ⟨span, name, arguments'⟩ state) := by
  refine (constant_refines preserved 0).bind_eq fun instant => ?_
  refine (constant_refines preserved 1).bind_eq fun format => ?_
  exact .rfl fun _ => rfl

theorem callConstant_refines (preserved : List.Forall₂ Argument.Preserved arguments arguments')
    (binding : Binding) :
    Refines Eq (callConstant ⟨span, name, arguments⟩ binding)
      (callConstant ⟨span, name, arguments'⟩ binding) := by
  have value : Refines Eq (Call.constant ⟨span, name, arguments⟩ 0)
      (Call.constant ⟨span, name, arguments'⟩ 0) := constant_refines preserved 0
  have others : Refines Eq (Call.constantTail ⟨span, name, arguments⟩)
      (Call.constantTail ⟨span, name, arguments'⟩) := constantTail_refines preserved
  unfold callConstant
  split
  case h_1 => exact value.bind_eq fun _ => .rfl fun _ => rfl
  case h_2 => exact value.bind_eq fun _ => .rfl fun _ => rfl
  case h_3 => exact formatted_refines preserved _
  case h_4 => exact value.bind_eq fun _ => others.bind_eq fun _ => .rfl fun _ => rfl
  case h_5 =>
    refine value.bind_eq fun constant => ?_
    split
    · exact .rfl fun _ => rfl
    · exact others.bind_eq fun _ => .rfl fun _ => rfl
  case h_6 => exact .error

theorem isAmong_refines (preserved : List.Forall₂ Argument.Preserved arguments arguments')
    (value : Constant) :
    Refines Eq (isAmong span value arguments) (isAmong span value arguments') := by
  induction preserved with
  | nil => exact .rfl fun _ => rfl
  | cons first _ ih =>
    refine first.same.bind_eq fun candidate => ?_
    refine Refines.bind_eq (.rfl fun _ => rfl) fun equal => ?_
    split
    · exact .rfl fun _ => rfl
    · exact ih

end Reduce

/-! ### Nodes -/

open Reduce

/-- The second expression is known and has the constant of the first, if that one does. -/
structure Preserved (expr expr' : Expr) : Prop where
  known : expr.isConstant = true → expr'.isConstant = true
  same : Refines Eq expr.reduce expr'.reduce

namespace Preserved

theorem rfl {expr : Expr} : Preserved expr expr := ⟨id, .rfl fun _ => Eq.refl _⟩

theorem trans {first second third : Expr} (earlier : Preserved first second)
    (later : Preserved second third) : Preserved first third :=
  ⟨later.known ∘ earlier.known, Refines.trans (R := Eq) Eq.trans earlier.same later.same⟩

/-- Predicates have a truth value where expressions have a constant. -/
theorem truth {node node' : BoolExpr} (preserved : Preserved (.bool node) (.bool node')) :
    Refines Eq node.reduce node'.reduce := by
  intro truth found
  obtain ⟨constant, found', same⟩ :=
    preserved.same (.boolean truth) (bind_eq_ok.2 ⟨truth, found, Eq.refl _⟩)
  obtain ⟨truth', found', same'⟩ := bind_eq_ok.1 found'
  exact ⟨truth', found', Constant.boolean.inj (same.trans (Except.ok.inj same').symm)⟩

private theorem reduce_bool {node node' : BoolExpr} (same : Refines Eq node.reduce node'.reduce) :
    Refines Eq (Expr.bool node).reduce (Expr.bool node').reduce :=
  same.bind_eq fun _ => .rfl fun _ => Eq.refl _

theorem of_truth {node node' : BoolExpr} (known : node.isConstant = true → node'.isConstant = true)
    (same : Refines Eq node.reduce node'.reduce) : Preserved (.bool node) (.bool node') :=
  ⟨known, reduce_bool same⟩

private theorem arguments {nodes nodes' : List ValueExpr}
    (preserved :
      List.Forall₂ (fun node node' => Preserved (.value node) (.value node')) nodes nodes') :
    List.Forall₂ Argument.Preserved (ValueExpr.arguments nodes) (ValueExpr.arguments nodes') := by
  induction preserved with
  | nil => exact .nil
  | cons first _ ih => exact .cons ⟨first.known, first.same⟩ ih

end Preserved

namespace SameNode

variable {expr expr' : Expr}

private theorem areConstant {nodes nodes' : List ValueExpr}
    (kept : List.Forall₂ (fun node node' => node.isConstant = true → node'.isConstant = true)
      nodes nodes')
    (known : (ValueExpr.areConstant nodes).all id = true) :
    (ValueExpr.areConstant nodes').all id = true := by
  induction kept with
  | nil => exact known
  | cons first _ ih =>
    simp only [ValueExpr.areConstant, List.all_cons, id, Bool.and_eq_true] at known ⊢
    exact ⟨first known.1, ih known.2⟩

private theorem isConstantCall {function : Function} {known known' : List Bool}
    (kept : known.all id = true → known'.all id = true)
    (constant : Reduce.isConstantCall function known = true) :
    Reduce.isConstantCall function known' = true := by
  cases function <;> first | exact kept constant | cases constant

/-- A node whose children stay known stays known. -/
theorem known
    (same : SameNode (fun child child' => child.isConstant = true → child'.isConstant = true)
      expr expr') (known : expr.isConstant = true) : expr'.isConstant = true := by
  cases same <;>
    simp only [Expr.isConstant, BoolExpr.isConstant, ValueExpr.isConstant, Bool.and_eq_true,
      Bool.false_eq_true] at known ⊢
  case leaf => exact known
  case reference => exact known
  case connective first second => exact ⟨first known.1, second known.2⟩
  case not only => exact only known
  case comparison first second => exact ⟨first known.1, second known.2⟩
  case bounds first second third => exact ⟨⟨first known.1.1, second known.1.2⟩, third known.2⟩
  case nullTest only => exact only known
  case inList first others => exact ⟨first known.1, areConstant others known.2⟩
  case inVector first second => exact ⟨first known.1, second known.2⟩
  case wrapper only => exact only known
  case arithmetic first second => exact ⟨first known.1, second known.2⟩
  case unary only => exact only known
  case cast only => exact only known
  case conversion only => exact only known
  case quantum only => exact only known
  case call all => exact isConstantCall (areConstant all) known

private theorem reduces (same : SameNode Preserved expr expr') :
    Refines Eq expr.reduce expr'.reduce := by
  cases same
  case leaf => exact .rfl fun _ => rfl
  case reference => exact .rfl fun _ => rfl
  case connective first second =>
    exact Preserved.reduce_bool
      (first.truth.bind_eq fun _ => second.truth.bind_eq fun _ => .rfl fun _ => rfl)
  case not only => exact Preserved.reduce_bool (only.truth.bind_eq fun _ => .rfl fun _ => rfl)
  case comparison first second =>
    exact Preserved.reduce_bool
      (first.same.bind_eq fun _ => second.same.bind_eq fun _ => .rfl fun _ => rfl)
  case bounds first second third =>
    refine Preserved.reduce_bool (first.same.bind_eq fun value => ?_)
    refine Refines.bind_eq ?_ fun _ => .rfl fun _ => rfl
    refine second.same.bind_eq fun lower => Refines.bind_eq (.rfl fun _ => rfl) fun above => ?_
    split
    · exact third.same.bind_eq fun upper => .rfl fun _ => rfl
    · exact .rfl fun _ => rfl
  case nullTest only => exact Preserved.reduce_bool (only.same.bind_eq fun _ => .rfl fun _ => rfl)
  case inList first others =>
    exact Preserved.reduce_bool
      (first.same.bind_eq fun value => isAmong_refines (Preserved.arguments others) value)
  case inVector => exact Preserved.reduce_bool .error
  case wrapper only => exact Preserved.reduce_bool (only.same.bind_eq fun _ => .rfl fun _ => rfl)
  case arithmetic first second =>
    exact first.same.bind_eq fun _ => second.same.bind_eq fun _ => .rfl fun _ => rfl
  case unary only => exact only.same.bind_eq fun _ => .rfl fun _ => rfl
  case cast only => exact only.same.bind_eq fun _ => .rfl fun _ => rfl
  case conversion only => exact only.same.bind_eq fun _ => .rfl fun _ => rfl
  case quantum only => exact only.same.bind_eq fun _ => .rfl fun _ => rfl
  case call all => exact callConstant_refines (Preserved.arguments all) _
  case aggregation => exact .error

/-- A node is preserved if its children are. -/
theorem preserved (same : SameNode Preserved expr expr') : Preserved expr expr' :=
  ⟨(same.imp fun _ _ _ preserved => preserved.known).known, same.reduces⟩

end SameNode

end EventQuery
