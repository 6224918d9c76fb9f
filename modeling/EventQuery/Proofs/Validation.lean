import EventQuery.Analysis.Validate
import EventQuery.Proofs.Counts
import EventQuery.Proofs.Resolution

/-!
What validation establishes at every node of a bound expression: the counts of
aggregations are integral constants, and everything else stays resolved.
-/
namespace EventQuery

open Outcome

/-- The counts of the node are integral constants. -/
def Expr.Settled : Expr → Prop
  | .value (.aggregation _ _ count _ _ _ quanta _) =>
    ∀ node, count = some node ∨ quanta = some node →
      ∃ span value, node = .constant span value ∧ value.type.isIntegral = true
  | _ => True

theorem Expr.settled_of_isLiteral {expr : Expr} (literal : expr.isLiteral = true) :
    expr.Settled := by
  obtain ⟨span, value, rfl | rfl⟩ := Expr.exists_of_isLiteral literal <;> trivial

theorem Expr.settled_of_isPlain {expr : Expr} (plain : expr.isPlain = true) : expr.Settled := by
  cases expr with
  | bool node => trivial
  | value node => cases node <;> trivial

namespace Validate

/-- The checks of a call settle the zone of `format_datetime`, and nothing else. -/
theorem checkCall_function [ZoneTable] {span : Span} {name : String} {arguments : List ValueExpr}
    {binding binding' : Binding} (found : checkCall span name arguments binding = .ok binding') :
    binding'.function = binding.function := by
  unfold checkCall at found
  dsimp only at found
  split at found
  case h_1 =>
    simp only [bind_eq_ok, pure_eq_ok] at found
    obtain ⟨_, _, rfl⟩ := found
    rfl
  case h_2 =>
    simp only [bind_eq_ok, pure_eq_ok] at found
    obtain ⟨_, _, rfl⟩ := found
    rfl
  case h_3 =>
    simp only [bind_eq_ok] at found
    obtain ⟨zone, _, found⟩ := found
    split at found <;> simp only [bind_eq_ok, pure_eq_ok] at found
    · obtain ⟨_, _, rfl⟩ := found
      cases zone <;> rfl
    · subst found
      cases zone <;> rfl
  case h_4 => exact congrArg Binding.function (pure_eq_ok.1 found).symm

/-- A count that is validated and then folded. -/
def validCount [ZoneTable] (node : ValueExpr) (what : String) : Except Diagnostic ValueExpr := do
  let valid ← Stopped.forget node.validate
  return (← Stopped.forget (foldCount valid what 1)).1

theorem exists_of_validCount [ZoneTable] {node folded : ValueExpr} {what : String}
    (found : validCount node what = .ok folded) :
    ∃ valid, node.validate = .ok valid ∧ valid.FoldsToCount 1 folded := by
  simp only [validCount, bind_eq_ok, pure_eq_ok, Stopped.forget_eq_ok] at found
  obtain ⟨valid, validates, ⟨folded, count⟩, folds, rfl⟩ := found
  exact ⟨valid, validates, what, count, folds⟩

theorem isCount_of_validCount [ZoneTable] {node folded : ValueExpr} {what : String}
    (found : validCount node what = .ok folded) : folded.IsCount 1 := by
  obtain ⟨_, -, folds⟩ := exists_of_validCount found
  exact folds.isCount

variable {span : Span} {op : AggregationOp} {count quanta : Option ValueExpr} {target : ValueExpr}
  {condition : Option BoolExpr} {scope : Option String} {scopePath : Option Path}

/-- What validation does to an aggregation; its count and its quanta are folded. -/
theorem forget_validate_aggregation [ZoneTable] :
    Stopped.forget
        (ValueExpr.aggregation span op count target condition scope quanta scopePath).validate = (do
      checkTop span op count.isSome
      let target ← Stopped.forget target.validate
      let condition ← condition.mapM fun node => Stopped.forget node.validate
      let count ← count.mapM fun node => validCount node "TOP count"
      let quanta ← quanta.mapM fun node => validCount node "QUANTA"
      return .aggregation span op count target condition scope quanta scopePath) := by
  cases count <;> cases condition <;> cases quanta <;>
    simp only [ValueExpr.validate, Stopped.forget_bind, Stopped.forget_pure,
      Stopped.forget_within, Stopped.forget_check, Option.mapM_some, Option.mapM_none,
      validCount, map_bind, bind_assoc, bind_map_left, pure_bind, map_pure]

/-- The parts of a validated aggregation. -/
theorem aggregation_parts [ZoneTable] {node' : ValueExpr}
    (valid :
      (ValueExpr.aggregation span op count target condition scope quanta scopePath).validate =
        .ok node') :
    ∃ count' target' condition' quanta', checkTop span op count.isSome = .ok () ∧
      Option.Rel (fun node node' => validCount node "TOP count" = .ok node') count count' ∧
      target.validate = .ok target' ∧
      Option.Rel (fun node node' => node.validate = .ok node') condition condition' ∧
      Option.Rel (fun node node' => validCount node "QUANTA" = .ok node') quanta quanta' ∧
      node' = .aggregation span op count' target' condition' scope quanta' scopePath := by
  rw [← Stopped.forget_eq_ok, forget_validate_aggregation] at valid
  simp only [bind_eq_ok, pure_eq_ok, Stopped.forget_eq_ok] at valid
  obtain ⟨_, top, target', only, condition', met, count', counted, quanta', lasting, rfl⟩ := valid
  exact ⟨count', target', condition', quanta', top, option_mapM_eq_ok.1 counted, only,
    rel_of_option_mapM met fun _ _ => Stopped.forget_eq_ok.1, option_mapM_eq_ok.1 lasting, rfl⟩

/-- What validation leaves for an optional count: the constant of an integral type. -/
def IsCount (node : Option ValueExpr) : Prop :=
  ∀ found, node = some found →
    ∃ span value, found = .constant span value ∧ value.type.isIntegral = true

private theorem isCount_of_rel [ZoneTable] {what : String} {node folded : Option ValueExpr}
    (folds : Option.Rel (fun node node' => validCount node what = .ok node') node folded) :
    IsCount folded := by
  rintro found rfl
  obtain ⟨_, _, folds⟩ := exists_of_rel_some folds
  obtain ⟨span, value, same, counts⟩ := isCount_of_validCount folds
  exact ⟨span, value, same, counts.integral⟩

/-- The parts of a validated aggregation; its count and its quanta are settled. -/
theorem aggregation_eq_ok [ZoneTable] {node' : ValueExpr}
    (valid :
      (ValueExpr.aggregation span op count target condition scope quanta scopePath).validate =
        .ok node') :
    ∃ count' target' condition' quanta', IsCount count' ∧ count'.isSome = count.isSome ∧
      target.validate = .ok target' ∧
      Option.Rel (fun node node' => node.validate = .ok node') condition condition' ∧
      IsCount quanta' ∧
      node' = .aggregation span op count' target' condition' scope quanta' scopePath := by
  obtain ⟨count', target', condition', quanta', _, counted, only, met, lasting, rfl⟩ :=
    aggregation_parts valid
  refine ⟨count', target', condition', quanta', isCount_of_rel counted, ?_, only, met,
    isCount_of_rel lasting, rfl⟩
  cases counted <;> rfl

end Validate

namespace Expr.ValidatesTo

variable {root : Path}

/-- The node stays resolved, its counts are settled, and its children are validated, or
constants that validation put there. -/
private abbrev Established [ZoneTable] (root : Path) (source expr : Expr) : Prop :=
  expr.Resolved root ∧ expr.Settled ∧ ∀ child' ∈ expr.children,
    child'.isLiteral = true ∨ ∃ child ∈ source.children, ValidatesTo child child'

private theorem of_values [ZoneTable] {nodes nodes' : List ValueExpr}
    (valid : List.Forall₂ (fun node node' => node.validate = .ok node') nodes nodes')
    {child' : Expr} (member : child' ∈ nodes'.map .value) :
    ∃ child ∈ nodes.map .value, ValidatesTo child child' := by
  obtain ⟨node', listed, rfl⟩ := List.mem_map.1 member
  obtain ⟨node, listed, valid⟩ := exists_of_mem_right valid listed
  exact ⟨.value node, List.mem_map_of_mem listed, .value valid⟩

/-- A call keeps fitting its function: the argument that describes a path is left alone. -/
private theorem fits_of_call [ZoneTable] {binding binding' : Binding}
    {arguments arguments' : List ValueExpr}
    (fits : binding.Fits root arguments) (same : binding'.function = binding.function)
    (validated : Validate.validatesArguments binding.function = true)
    (all : List.Forall₂ (fun node node' => node.validate = .ok node') arguments arguments') :
    binding'.Fits root arguments' := by
  refine ⟨?_, fun described => ?_, fun reference asks => ?_⟩
  · rw [same, ← all.length_eq]
    exact fits.accepted
  · obtain ⟨span, name, path, rfl⟩ := fits.described (same ▸ described)
    exact ⟨span, name, path, eq_singleton all fun _ keeps => (pure_eq_ok.1 keeps).symm⟩
  · rw [← same, asks] at validated
    cases validated

private theorem isLiteral_of_count {node : ValueExpr} {count : Option ValueExpr}
    (settled : Validate.IsCount count) (found : count = some node) :
    (Expr.value node).isLiteral = true := by
  obtain ⟨span, value, rfl, _⟩ := settled node found
  rfl

private theorem inversion_call [ZoneTable] {span : Span} {name : String}
    {arguments : List ValueExpr} {binding : Option Binding} {node' : ValueExpr}
    (valid : (ValueExpr.call span name arguments binding).validate = .ok node')
    (resolved : (Expr.value (.call span name arguments binding)).Resolved root) :
    Established root (.value (.call span name arguments binding)) (.value node') := by
  obtain ⟨known, rfl, fits⟩ := resolved
  simp only [ValueExpr.validate] at valid
  split at valid
  case isTrue validated =>
    simp only [bind_eq_ok, pure_eq_ok, Stopped.within_eq_ok] at valid
    obtain ⟨arguments', all, binding', found, rfl⟩ := valid
    have all := Validate.validateAll_eq_ok.1 all
    have fits := fits_of_call fits (Validate.checkCall_function found) validated all
    exact ⟨⟨_, rfl, fits⟩, trivial, fun child' member => .inr (of_values all member)⟩
  case isFalse hidden =>
    cases valid
    obtain ⟨reference, asks⟩ : ∃ reference, known.function = .about reference := by
      cases asked : known.function <;>
        simp only [asked, Validate.validatesArguments, not_true_eq_false] at hidden
      exact ⟨_, rfl⟩
    obtain ⟨span, text, rfl, _⟩ := fits.asked reference asks
    exact ⟨⟨_, rfl, fits⟩, trivial, by simp [children, ValueExpr.children, isLiteral]⟩

private theorem inversion_aggregation [ZoneTable] {span : Span} {op : AggregationOp}
    {count quanta : Option ValueExpr} {target : ValueExpr} {condition : Option BoolExpr}
    {scope : Option String} {scopePath : Option Path} {node' : ValueExpr}
    (valid : (ValueExpr.aggregation span op count target condition scope quanta
      scopePath).validate = .ok node')
    (resolved : (Expr.value (.aggregation span op count target condition scope quanta
      scopePath)).Resolved root) :
    Established root (.value (.aggregation span op count target condition scope quanta scopePath))
      (.value node') := by
  obtain ⟨count', target', condition', quanta', counted, -, only, met, lasting, rfl⟩ :=
    Validate.aggregation_eq_ok valid
  refine ⟨resolved, fun node found => found.elim (counted node) (lasting node),
    fun child' member => ?_⟩
  simp only [children, ValueExpr.children, List.mem_append, List.mem_cons, List.mem_map,
    Option.mem_toList] at member ⊢
  rcases member with (⟨node', found, rfl⟩ | rfl | ⟨node', rfl, rfl⟩) | ⟨node', found, rfl⟩
  · exact .inl (isLiteral_of_count counted found)
  · exact .inr ⟨_, .inl (.inr (.inl rfl)), .value only⟩
  · obtain ⟨node, rfl, validates⟩ := exists_of_rel_some met
    exact .inr ⟨_, .inl (.inr (.inr ⟨node, rfl, rfl⟩)), .bool validates⟩
  · exact .inl (isLiteral_of_count lasting found)

/-- What validation does to a resolved node. -/
theorem inversion [ZoneTable] {source expr : Expr} (valid : ValidatesTo source expr)
    (resolved : source.Resolved root) :
    expr.Resolved root ∧ expr.Settled ∧ ∀ child' ∈ expr.children,
      child'.isLiteral = true ∨ ∃ child ∈ source.children, ValidatesTo child child' := by
  by_cases plain : source.isPlain = true
  · have same := (sameNode_iff plain).1 valid
    have plain' := same.isPlain_eq.trans plain
    exact ⟨resolved_of_isPlain plain', settled_of_isPlain plain',
      fun child' member => .inr (same.exists_child_of_isPlain plain child' member)⟩
  cases valid with
  | @bool node node' valid =>
    cases node <;> first | exact absurd rfl plain | skip
    case boundary =>
      cases valid
      exact ⟨resolved, trivial, List.forall_mem_nil _⟩
    case stepReference =>
      cases valid
      exact ⟨trivial, trivial, List.forall_mem_nil _⟩
  | @value node node' valid =>
    cases node <;> first | exact absurd rfl plain | skip
    case path =>
      cases valid
      exact ⟨resolved, trivial, List.forall_mem_nil _⟩
    case parameter =>
      cases valid
      exact ⟨resolved, trivial, List.forall_mem_nil _⟩
    case quantum span taken operand zone known =>
      rcases zone with _ | zone <;>
        simp only [ValueExpr.validate, bind_eq_ok, pure_eq_ok, Stopped.within_eq_ok] at valid
      · obtain ⟨operand, only, rfl⟩ := valid
        exact ⟨trivial, trivial, by simp [children, ValueExpr.children, ValidatesTo.value only]⟩
      · obtain ⟨operand, only, _, _, rfl⟩ := valid
        exact ⟨trivial, trivial, by simp [children, ValueExpr.children, ValidatesTo.value only]⟩
    case call => exact inversion_call valid resolved
    case aggregation => exact inversion_aggregation valid resolved

/-- Validation keeps an expression resolved and settles its counts. -/
theorem settled [ZoneTable] {source expr : Expr} (valid : ValidatesTo source expr)
    (resolved : source.Everywhere (Resolved root)) :
    expr.Everywhere fun expr => expr.Resolved root ∧ expr.Settled := by
  induction source using Expr.byChildren generalizing expr with
  | node source ih =>
    obtain ⟨stays, settles, children⟩ := valid.inversion resolved.here
    refine .node ⟨stays, settles⟩ fun child' member => ?_
    rcases children child' member with literal | ⟨child, member, valid⟩
    · exact .of_isLiteral literal ⟨resolved_of_isLiteral literal, settled_of_isLiteral literal⟩
    · exact ih child member valid (resolved.child member)

end Expr.ValidatesTo

/-- A validated expression is well typed and has an evaluation point. -/
theorem Expr.validate_eq_ok [ZoneTable] {source expr : Expr} {point : Option Path}
    (valid : source.validate = .ok (expr, point)) :
    ValidatesTo source expr ∧ (∃ type, expr.type = .ok type) ∧ expr.point = .ok point := by
  cases source with
  | bool node =>
    simp only [validate, BoolExpr.checked, bind_eq_ok, pure_eq_ok, Stopped.within_eq_ok,
      Stopped.check_eq_ok] at valid
    obtain ⟨_, ⟨node', validates, _, typed, _, found, rfl⟩, same⟩ := valid
    obtain ⟨rfl, rfl⟩ := Prod.mk.inj same
    exact ⟨.bool validates, ⟨.boolean, bind_eq_ok.2 ⟨_, typed, rfl⟩⟩, found⟩
  | value node =>
    simp only [validate, ValueExpr.checked, bind_eq_ok, pure_eq_ok, Stopped.within_eq_ok,
      Stopped.check_eq_ok] at valid
    obtain ⟨_, ⟨node', validates, type, typed, _, found, rfl⟩, same⟩ := valid
    obtain ⟨rfl, rfl⟩ := Prod.mk.inj same
    exact ⟨.value validates, ⟨type, typed⟩, found⟩

end EventQuery
