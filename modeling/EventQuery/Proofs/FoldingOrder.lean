import EventQuery.Calendar.Places
import EventQuery.Proofs.BoundPrograms
import EventQuery.Proofs.KnownValues
import EventQuery.Proofs.Levels

/-!
The two ways to the constant of an expression that is known at compile time. Reduction goes down
from the root and does not read an operand that decides nothing; optimization folds every child
first. So optimization succeeds exactly if reduction does and the operands that it does not read
have constants as well.
-/
namespace EventQuery

open Outcome

/-! ### Calls -/

namespace Reduce

variable {span : Span} {name : String} {nodes : List ValueExpr}

theorem exists_of_constant {index : Nat} {value : Constant}
    (found : Call.constant ⟨span, name, ValueExpr.arguments nodes⟩ index = .ok value) :
    ∃ node, nodes[index]? = some node ∧ node.reduce = .ok value := by
  simp only [Call.constant, arguments_eq_map, List.getElem?_map] at found
  cases isNode : nodes[index]? with
  | none => simp [isNode] at found
  | some node =>
    simp only [isNode, Option.map_some] at found
    split at found
    · exact ⟨node, rfl, found⟩
    · cases found

theorem exists_of_constantTail {values : List Constant}
    (found : Call.constantTail ⟨span, name, ValueExpr.arguments nodes⟩ = .ok values) {index : Nat}
    {node : ValueExpr} (isNode : nodes[index + 1]? = some node) :
    ∃ value, node.reduce = .ok value := by
  have inside : index ∈ List.range (nodes.length - 1) := by
    have bound := (List.getElem?_eq_some_iff.1 isNode).1
    exact List.mem_range.2 (by omega)
  simp only [Call.constantTail, arguments_eq_map, List.length_map] at found
  obtain ⟨value, -, found⟩ := exists_of_mem_left (mapM_eq_ok.1 found) inside
  rw [← arguments_eq_map] at found
  obtain ⟨node', same, found⟩ := exists_of_constant found
  obtain rfl := Option.some.inj (isNode.symm.trans same)
  exact ⟨value, found⟩

/-- The arguments that decide nothing about the constant of a call: the boundaries if `NULL` is
split, and the name of the time zone, which is part of the binding. -/
def unreadArguments : Function → List ValueExpr → List ValueExpr
  | .split, value :: boundaries =>
    match value.reduce with
    | .ok .null => boundaries
    | _ => []
  | .formatDatetime, arguments => arguments.drop 2
  | _, _ => []

theorem mem_unreadArguments_split
    (first : Call.constant ⟨span, name, ValueExpr.arguments nodes⟩ 0 = .ok .null) {index : Nat}
    {node : ValueExpr} (isNode : nodes[index + 1]? = some node) :
    node ∈ unreadArguments .split nodes := by
  obtain ⟨value, isValue, reduces⟩ := exists_of_constant first
  cases nodes with
  | nil => cases isValue
  | cons head boundaries =>
    obtain rfl := Option.some.inj isValue
    simp only [unreadArguments, reduces]
    exact List.mem_of_getElem? isNode

/-- All arguments of a call that has a constant have constants, or are not read. -/
theorem exists_or_unread_of_callConstant {binding : Binding} {value : Constant}
    (accepted : binding.function.arity.accepts nodes.length = true)
    (found : callConstant ⟨span, name, ValueExpr.arguments nodes⟩ binding = .ok value)
    {index : Nat} {node : ValueExpr} (isNode : nodes[index]? = some node) :
    (∃ value, node.reduce = .ok value) ∨ node ∈ unreadArguments binding.function nodes := by
  have reduces {place : Nat} {value : Constant} (same : index = place)
      (found : Call.constant ⟨span, name, ValueExpr.arguments nodes⟩ place = .ok value) :
      ∃ value, node.reduce = .ok value := by
    subst same
    obtain ⟨node', isNode', found⟩ := exists_of_constant found
    obtain rfl := Option.some.inj (isNode.symm.trans isNode')
    exact ⟨value, found⟩
  have inside : index < nodes.length := (List.getElem?_eq_some_iff.1 isNode).1
  obtain ⟨function, state⟩ := binding
  unfold callConstant at found
  cases function <;>
    simp only [Function.arity, Arity.accepts, reduceCtorEq] at found accepted
  case parseDatetime =>
    obtain ⟨_, first, _⟩ := bind_eq_ok.1 found
    exact .inl (reduces (by simp at accepted; omega) first)
  case epochMillis =>
    obtain ⟨_, first, _⟩ := bind_eq_ok.1 found
    exact .inl (reduces (by simp at accepted; omega) first)
  case formatDatetime =>
    obtain ⟨_, first, found⟩ := bind_eq_ok.1 found
    obtain ⟨_, second, _⟩ := bind_eq_ok.1 found
    rcases index with _ | _ | index
    · exact .inl (reduces rfl first)
    · exact .inl (reduces rfl second)
    · have behind : (nodes.drop 2)[index]? = some node := by
        rw [List.getElem?_drop, Nat.add_comm]
        exact isNode
      exact .inr (List.mem_of_getElem? behind)
  case enum =>
    obtain ⟨_, first, found⟩ := bind_eq_ok.1 found
    obtain ⟨_, tail, _⟩ := bind_eq_ok.1 found
    cases index with
    | zero => exact .inl (reduces rfl first)
    | succ index => exact .inl (exists_of_constantTail tail isNode)
  case split =>
    obtain ⟨divided, first, found⟩ := bind_eq_ok.1 found
    cases index with
    | zero => exact .inl (reduces rfl first)
    | succ index =>
      split at found
      case isFalse =>
        obtain ⟨_, tail, _⟩ := bind_eq_ok.1 found
        exact .inl (exists_of_constantTail tail isNode)
      case isTrue isNull =>
        obtain rfl : divided = .null := by cases divided <;> first | rfl | cases isNull
        exact .inr (mem_unreadArguments_split first isNode)

/-! ### Operators -/

/-- The candidates behind the first one that equals a value. -/
def unreadCandidates (span : Span) (value : Constant) : List ValueExpr → List ValueExpr
  | [] => []
  | candidate :: rest =>
    match candidate.reduce >>= comparison span .eq value with
    | .ok true => rest
    | _ => unreadCandidates span value rest

theorem exists_or_unread_of_isAmong {value : Constant} {truth : Bool}
    (found : isAmong span value (ValueExpr.arguments nodes) = .ok truth) :
    ∀ node ∈ nodes, (∃ constant, node.reduce = .ok constant) ∨
      node ∈ unreadCandidates span value nodes := by
  induction nodes with
  | nil => exact List.forall_mem_nil _
  | cons candidate rest ih =>
    simp only [ValueExpr.arguments, isAmong, bind_eq_ok] at found
    obtain ⟨constant, reduces, equal, compares, found⟩ := found
    have met : (candidate.reduce >>= comparison span .eq value) = .ok equal :=
      bind_eq_ok.2 ⟨constant, reduces, compares⟩
    refine List.forall_mem_cons.2 ⟨.inl ⟨constant, reduces⟩, fun node listed => ?_⟩
    cases equal with
    | true =>
      right
      simpa only [unreadCandidates, met] using listed
    | false =>
      rw [unreadCandidates, met]
      exact ih found node listed

end Reduce

/-! ### Nodes -/

open Reduce

namespace Expr

variable {root : Path} {expr : Expr}

/-- The operands of a node that reduction does not read: the upper bound for a value below the lower
one, the candidates behind the one that is met, and the arguments that decide nothing. -/
def unread : Expr → List Expr
  | .bool (.bounds span _ compared lower upper) =>
    match (do comparison span .gte (← compared.reduce) (← lower.reduce)) with
    | .ok false => [.value upper]
    | _ => []
  | .bool (.inList span compared candidates) =>
    match compared.reduce with
    | .ok constant => (unreadCandidates span constant candidates).map .value
    | .error _ => []
  | .value (.call _ _ arguments (some binding)) =>
    (unreadArguments binding.function arguments).map .value
  | _ => []

private theorem mem_of_mem_unreadCandidates {span : Span} {value : Constant}
    {nodes : List ValueExpr} {node : ValueExpr}
    (listed : node ∈ unreadCandidates span value nodes) : node ∈ nodes := by
  induction nodes with
  | nil => cases listed
  | cons candidate rest ih =>
    rw [unreadCandidates] at listed
    split at listed
    · exact List.mem_cons_of_mem _ listed
    · exact List.mem_cons_of_mem _ (ih listed)

private theorem mem_of_mem_unreadArguments {function : Function} {nodes : List ValueExpr}
    {node : ValueExpr} (listed : node ∈ unreadArguments function nodes) : node ∈ nodes := by
  unfold unreadArguments at listed
  split at listed
  case h_1 =>
    split at listed
    · exact List.mem_cons_of_mem _ listed
    · cases listed
  case h_2 => exact List.mem_of_mem_drop listed
  case h_3 => cases listed

theorem mem_children_of_mem_unread {operand : Expr} (listed : operand ∈ expr.unread) :
    operand ∈ expr.children := by
  unfold unread at listed
  split at listed
  case h_1 =>
    split at listed
    · simp_all [children, BoolExpr.children]
    · cases listed
  case h_2 =>
    split at listed
    · obtain ⟨node, behind, rfl⟩ := List.mem_map.1 listed
      exact List.mem_cons_of_mem _ (List.mem_map_of_mem (mem_of_mem_unreadCandidates behind))
    · cases listed
  case h_3 =>
    obtain ⟨node, argument, rfl⟩ := List.mem_map.1 listed
    exact List.mem_map_of_mem (mem_of_mem_unreadArguments argument)
  case h_4 => cases listed

private theorem reduces_bool {node : BoolExpr} {truth : Bool} (found : node.reduce = .ok truth) :
    ∃ constant, (Expr.bool node).reduce = .ok constant :=
  ⟨.boolean truth, bind_eq_ok.2 ⟨truth, found, rfl⟩⟩

private theorem exists_or_unread_of_bool {node : BoolExpr} {truth : Bool}
    (decided : node.reduce = .ok truth) : ∀ child ∈ node.children,
      (∃ constant, child.reduce = .ok constant) ∨ child ∈ (Expr.bool node).unread := by
  cases node
  case constant => exact List.forall_mem_nil _
  case binary =>
    simp only [BoolExpr.reduce, bind_eq_ok] at decided
    obtain ⟨left, first, right, second, _⟩ := decided
    exact List.forall_mem_cons.2
      ⟨.inl (reduces_bool first), List.forall_mem_singleton.2 (.inl (reduces_bool second))⟩
  case not =>
    obtain ⟨operand, only, _⟩ := bind_eq_ok.1 decided
    exact List.forall_mem_singleton.2 (.inl (reduces_bool only))
  case comparison =>
    simp only [BoolExpr.reduce, bind_eq_ok] at decided
    obtain ⟨left, first, right, second, _⟩ := decided
    exact List.forall_mem_cons.2
      ⟨.inl ⟨left, first⟩, List.forall_mem_singleton.2 (.inl ⟨right, second⟩)⟩
  case bounds span op value lower upper =>
    simp only [BoolExpr.reduce, isBetween, bind_eq_ok] at decided
    obtain ⟨compared, first, _, ⟨least, second, above, compares, decided⟩, _⟩ := decided
    refine List.forall_mem_cons.2 ⟨.inl ⟨compared, first⟩,
      List.forall_mem_cons.2 ⟨.inl ⟨least, second⟩, List.forall_mem_singleton.2 ?_⟩⟩
    cases above with
    | true =>
      obtain ⟨greatest, third, _⟩ := bind_eq_ok.1 decided
      exact .inl ⟨greatest, third⟩
    | false =>
      have below : (do comparison span .gte (← value.reduce) (← lower.reduce)) = .ok false :=
        bind_eq_ok.2 ⟨compared, first, bind_eq_ok.2 ⟨least, second, compares⟩⟩
      right
      simp only [unread, below, List.mem_singleton]
  case nullTest =>
    obtain ⟨operand, only, _⟩ := bind_eq_ok.1 decided
    exact List.forall_mem_singleton.2 (.inl ⟨operand, only⟩)
  case inList span value candidates =>
    obtain ⟨compared, first, decided⟩ := bind_eq_ok.1 decided
    refine List.forall_mem_cons.2 ⟨.inl ⟨compared, first⟩, List.forall_mem_map.2 ?_⟩
    intro node listed
    refine (exists_or_unread_of_isAmong decided node listed).imp_right fun behind => ?_
    simp only [unread, first]
    exact List.mem_map_of_mem behind
  case wrapper =>
    obtain ⟨value, only, _⟩ := bind_eq_ok.1 decided
    exact List.forall_mem_singleton.2 (.inl ⟨value, only⟩)
  all_goals cases decided

/-- The children of a node that has a constant have constants, or are not read. -/
theorem exists_or_unread_of_reduce (resolved : expr.Resolved root) {constant : Constant}
    (found : expr.reduce = .ok constant) :
    ∀ child ∈ expr.children, (∃ constant, child.reduce = .ok constant) ∨ child ∈ expr.unread := by
  cases expr with
  | bool node =>
    obtain ⟨truth, decided, _⟩ := bind_eq_ok.1 found
    exact exists_or_unread_of_bool decided
  | value node =>
    cases node
    case constant => exact List.forall_mem_nil _
    case binary =>
      simp only [reduce, ValueExpr.reduce, bind_eq_ok] at found
      obtain ⟨left, first, right, second, _⟩ := found
      exact List.forall_mem_cons.2
        ⟨.inl ⟨left, first⟩, List.forall_mem_singleton.2 (.inl ⟨right, second⟩)⟩
    case unary | cast | conversion | quantum =>
      obtain ⟨operand, only, _⟩ := bind_eq_ok.1 found
      exact List.forall_mem_singleton.2 (.inl ⟨operand, only⟩)
    case call span name arguments binding =>
      obtain ⟨known, rfl, fits⟩ := resolved
      refine List.forall_mem_map.2 fun node listed => ?_
      obtain ⟨index, isNode⟩ := List.mem_iff_getElem?.1 listed
      exact (exists_or_unread_of_callConstant fits.accepted found isNode).imp_right
        List.mem_map_of_mem
    all_goals cases found

/-! ### Both ways -/

/-- Every operand that reduction of the expression does not read, at any depth, has a constant. -/
def UnreadReduce (expr : Expr) : Prop :=
  ∀ part, expr.HasPart part → ∀ operand ∈ part.unread, ∃ constant, operand.reduce = .ok constant

theorem UnreadReduce.child {child : Expr} (reduce : expr.UnreadReduce)
    (member : child ∈ expr.children) : child.UnreadReduce :=
  fun part has => reduce part (.within member has)

/-- All parts of a known expression that is optimized can be optimized. -/
theorem exists_optimized_of_hasPart {expr' part : Expr} (optimized : Optimized true expr expr')
    (known : expr.isConstant = true) (has : expr.HasPart part) :
    part.isConstant = true ∧ ∃ part', Optimized true part part' := by
  induction has generalizing expr' with
  | whole => exact ⟨known, expr', optimized⟩
  | @within expr child part member has ih =>
    obtain ⟨mid, same, _⟩ := optimized.exists_collapse
    have each : ∀ child ∈ expr.children, ∃ child', Optimized true child child' := by
      refine (same.imp (S := fun child _ => ∃ child', Optimized true child child')
        fun child _ child' optimized => ⟨child', optimized⟩).forall_children ?_
      rintro span name arguments ⟨function, state⟩ hidden rfl _
      cases function <;> cases hidden
      cases known
    obtain ⟨child', optimized⟩ := each child member
    exact ih optimized (isConstant_child known member)

/-- A known expression that is optimized becomes its constant, and everything in it has one. -/
private theorem reduces_of_optimized {expr' : Expr} (optimized : Optimized true expr expr')
    (known : expr.isConstant = true) :
    ∃ constant, expr.reduce = .ok constant ∧ expr.UnreadReduce ∧
      expr' = expr.asConstant constant := by
  obtain ⟨constant, found, same⟩ := optimized.exists_asConstant known
  refine ⟨constant, found, fun part has operand listed => ?_, same⟩
  obtain ⟨knownPart, part', optimizedPart⟩ := exists_optimized_of_hasPart optimized known has
  obtain ⟨knownOperand, operand', optimizedOperand⟩ := exists_optimized_of_hasPart optimizedPart
    knownPart (.within (mem_children_of_mem_unread listed) .whole)
  obtain ⟨constant, found, _⟩ := optimizedOperand.exists_asConstant knownOperand
  exact ⟨constant, found⟩

/-- A known expression that has a constant is optimized if the operands that reduction does not
read have constants. -/
private theorem optimized_of_reduces (resolved : expr.Everywhere (Resolved root))
    (known : expr.isConstant = true) {constant : Constant} (found : expr.reduce = .ok constant)
    (reduce : expr.UnreadReduce) : Optimized true expr (expr.asConstant constant) := by
  induction expr using Expr.byChildren generalizing constant with
  | node expr ih =>
    refine optimized_asConstant known found fun child member => ?_
    obtain ⟨constant, found⟩ : ∃ constant, child.reduce = .ok constant := by
      rcases exists_or_unread_of_reduce resolved.here found child member with reduces | unread
      · exact reduces
      · exact reduce expr .whole child unread
    exact ⟨_, ih child member (resolved.child member) (isConstant_child known member) found
      (reduce.child member)⟩

/-- Both ways agree on the constant of an expression that is known at compile time, where it stands
after binding and in between all later passes. With folding it is optimized exactly if it reduces
to a constant and the operands that reduction does not read have constants too, and then the
constant takes its place. -/
theorem optimize_iff_reduce [ZoneTable] {context : Context} {source bound : Expr}
    (binds : source.bind context = .ok bound) (leads : bound.LeadsTo expr)
    (known : expr.isConstant = true) (expr' : Expr) :
    expr.optimize true = .ok expr' ↔
      ∃ constant, expr.reduce = .ok constant ∧ expr.UnreadReduce ∧
        expr' = expr.asConstant constant := by
  have resolved : expr.Everywhere (Resolved context.schema.root) :=
    (leads.everywhere_bound (BindsIn.iff_bind.2 binds).everywhere_bound).imp fun _ =>
      Bound.resolved
  constructor
  · exact fun optimized => reduces_of_optimized optimized known
  · rintro ⟨constant, found, reduce, rfl⟩
    exact optimized_of_reduces resolved known found reduce

end Expr

/-! ### An upper bound that is not read -/

private def noFields : Context :=
  .start ⟨.relation ["user"], [.relation ["user"]]⟩ ⟨.utc, true⟩ .builtin

/-- `1 BETWEEN 2 AND 6 / divisor`. -/
private def upToQuotient (divisor : Int32) : Expr :=
  .bool (.bounds .none .between (.ofConstant (.integer 1)) (.ofConstant (.integer 2))
    (.ofBinary .divide (.ofConstant (.integer 6)) (.ofConstant (.integer divisor))))

open Places

theorem optimize_iff_reduce_quotient :
    (upToQuotient 2).bind noFields = .ok (upToQuotient 2) ∧ (upToQuotient 2).isConstant = true ∧
      ∃ constant, (upToQuotient 2).reduce = .ok constant ∧ (upToQuotient 2).UnreadReduce ∧
        .bool (.ofTruth false) = (upToQuotient 2).asConstant constant :=
  have binds : (upToQuotient 2).bind noFields = .ok (upToQuotient 2) := rfl
  ⟨binds, rfl, (Expr.optimize_iff_reduce binds .refl rfl _).1 rfl⟩

/-- A division by zero in the upper bound leaves the truth alone, but not the optimization. -/
theorem not_optimize_quotient :
    ∃ (context : Context) (source expr : Expr), source.bind context = .ok expr ∧
      expr.isConstant = true ∧ (∃ type, expr.type = .ok type) ∧
      (∃ constant, expr.reduce = .ok constant) ∧ ∀ expr', expr.optimize true ≠ .ok expr' :=
  ⟨noFields, upToQuotient 0, upToQuotient 0, rfl, rfl, ⟨_, rfl⟩, ⟨_, rfl⟩, nofun⟩

end EventQuery
