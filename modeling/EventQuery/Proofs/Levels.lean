import EventQuery.Proofs.Tree
import EventQuery.Statement.Traversal

/-!
The parts of an expression and the levels they lie at. A part lies deeper in the whole than by
itself, so what is not nested too deep has no part that is.
-/
namespace EventQuery

/-! ### Parts -/

namespace Expr

/-- The second expression is the first one or stands somewhere below it. -/
inductive HasPart : Expr → Expr → Prop where
  | whole {expr : Expr} : HasPart expr expr
  | within {expr child part : Expr} (member : child ∈ expr.children) (has : HasPart child part) :
    HasPart expr part

/-! ### Levels -/

private theorem nodesOfAllFrom_eq (level : Nat) (nodes : List ValueExpr) :
    ValueExpr.nodesOfAllFrom level nodes =
      nodes.flatMap fun node => (Expr.value node).nodesFrom level := by
  induction nodes with
  | nil => rfl
  | cons node rest ih => simp only [ValueExpr.nodesOfAllFrom, ih, List.flatMap_cons, nodesFrom]

theorem nodesFrom_eq (level : Nat) (expr : Expr) :
    expr.nodesFrom level =
      (level, expr) :: expr.children.flatMap fun child => child.nodesFrom (level + 1) := by
  cases expr with
  | bool node =>
    cases node <;>
      simp [nodesFrom, BoolExpr.belowFrom, children, BoolExpr.children, nodesOfAllFrom_eq,
        List.flatMap_map]
  | value node =>
    cases node
    case aggregation _ _ count _ condition _ quanta _ =>
      cases count <;> cases condition <;> cases quanta <;>
        simp [nodesFrom, ValueExpr.belowFrom, children, ValueExpr.children]
    all_goals
      simp [nodesFrom, ValueExpr.belowFrom, children, ValueExpr.children, nodesOfAllFrom_eq,
        List.flatMap_map]

/-- Every level rises with that of the whole. -/
theorem mem_nodesFrom_add {expr : Expr} {level : Nat} {place : Nat × Expr}
    (listed : place ∈ expr.nodesFrom level) (more : Nat) :
    (place.1 + more, place.2) ∈ expr.nodesFrom (level + more) := by
  induction expr using byChildren generalizing level with
  | node expr ih =>
    rw [nodesFrom_eq, List.mem_cons, List.mem_flatMap] at listed ⊢
    rcases listed with rfl | ⟨child, member, listed⟩
    · exact .inl rfl
    · refine .inr ⟨child, member, ?_⟩
      rw [Nat.add_right_comm]
      exact ih child member listed

/-- The nodes of a part are nodes of the whole, at least as deep. -/
theorem HasPart.exists_mem_nodesFrom {expr part : Expr} (has : expr.HasPart part) {level : Nat}
    {place : Nat × Expr} (listed : place ∈ part.nodesFrom level) :
    ∃ deeper ≥ place.1, (deeper, place.2) ∈ expr.nodesFrom level := by
  induction has with
  | whole => exact ⟨place.1, Nat.le_refl _, listed⟩
  | within member _ ih =>
    obtain ⟨deeper, below, listed⟩ := ih listed
    refine ⟨deeper + 1, Nat.le_succ_of_le below, ?_⟩
    rw [nodesFrom_eq]
    exact List.mem_cons_of_mem _ (List.mem_flatMap.2 ⟨_, member, mem_nodesFrom_add listed 1⟩)

end Expr

/-! ### The limit -/

namespace Visit

variable {limit : Nat}

theorem checkDepth_eq_ok {visits : List Visit} :
    checkDepth limit visits = .ok () ↔
      ∀ visit ∈ visits, ∀ place, visit.place? = some place → place.1 ≤ limit := by
  unfold checkDepth
  constructor
  · intro passes visit listed place isPlace
    split at passes
    case h_1 => cases passes
    case h_2 shallow =>
      simpa using List.find?_eq_none.1 shallow place (List.mem_filterMap.2 ⟨visit, listed, isPlace⟩)
  · intro shallow
    split
    case h_2 => rfl
    case h_1 level span deep =>
      obtain ⟨visit, listed, isPlace⟩ := List.mem_filterMap.1 (List.mem_of_find?_eq_some deep)
      have tooDeep := List.find?_some deep
      have bound := shallow visit listed _ isPlace
      simp only [decide_eq_true_eq] at tooDeep bound
      omega

theorem checkDepth_ofExpr {expr : Expr} :
    checkDepth limit (ofExpr expr) = .ok () ↔ ∀ place ∈ expr.nodesFrom 1, place.1 ≤ limit := by
  simp only [checkDepth_eq_ok, ofExpr, List.forall_mem_map, place?, Option.some.injEq, forall_eq']

/-- What is nested too deep by itself is nested too deep in every whole. -/
theorem checkDepth_part {expr part : Expr} (has : expr.HasPart part)
    (shallow : checkDepth limit (ofExpr expr) = .ok ()) :
    checkDepth limit (ofExpr part) = .ok () := by
  rw [checkDepth_ofExpr] at shallow ⊢
  intro place listed
  obtain ⟨deeper, below, listed⟩ := has.exists_mem_nodesFrom listed
  exact Nat.le_trans below (shallow _ listed)

end Visit

end EventQuery
