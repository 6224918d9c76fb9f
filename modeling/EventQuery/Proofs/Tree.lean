import EventQuery.Expression.Children
import Mathlib.Data.List.Forall2

/-!
Induction over expression trees by the children of a node, and properties that hold at
every node of a tree. Both go through `Expr.children`, so that a proof about all nodes
does not repeat the two families.
-/
namespace EventQuery

/-- Lists that are related in turn: what is in the second is related to something in the
first. -/
theorem exists_of_mem_right {α β : Type} {R : α → β → Prop} {parts : List α} {parts' : List β}
    (related : List.Forall₂ R parts parts') {part' : β} (member : part' ∈ parts') :
    ∃ part ∈ parts, R part part' := by
  induction related with
  | nil => cases member
  | cons first _ ih =>
    rcases List.mem_cons.1 member with rfl | member
    · exact ⟨_, List.mem_cons_self, first⟩
    · obtain ⟨part, listed, related⟩ := ih member
      exact ⟨part, List.mem_cons_of_mem _ listed, related⟩

theorem exists_of_mem_left {α β : Type} {R : α → β → Prop} {parts : List α} {parts' : List β}
    (related : List.Forall₂ R parts parts') {part : α} (listed : part ∈ parts) :
    ∃ part' ∈ parts', R part part' := exists_of_mem_right related.flip listed

theorem exists_forall₂ {α β : Type} {R : α → β → Prop} {parts : List α}
    (each : ∀ part ∈ parts, ∃ part', R part part') : ∃ parts', List.Forall₂ R parts parts' := by
  induction parts with
  | nil => exact ⟨[], .nil⟩
  | cons part rest ih =>
    obtain ⟨⟨part', first⟩, others⟩ := List.forall_mem_cons.1 each
    obtain ⟨rest', others⟩ := ih others
    exact ⟨part' :: rest', .cons first others⟩

theorem forall₂_imp_of_mem {α β : Type} {R S : α → β → Prop} {parts : List α} {parts' : List β}
    (weaker : ∀ part ∈ parts, ∀ part', R part part' → S part part')
    (related : List.Forall₂ R parts parts') : List.Forall₂ S parts parts' := by
  induction related with
  | nil => exact .nil
  | cons first _ ih =>
    obtain ⟨weakerFirst, weakerRest⟩ := List.forall_mem_cons.1 weaker
    exact .cons (weakerFirst _ first) (ih weakerRest)

theorem forall₂_comp_iff {α β γ : Type} {R : α → β → Prop} {S : β → γ → Prop} {parts : List α}
    {values : List γ} :
    List.Forall₂ (fun part value => ∃ between, R part between ∧ S between value) parts values ↔
      ∃ betweens, List.Forall₂ R parts betweens ∧ List.Forall₂ S betweens values := by
  constructor
  · intro related
    induction related with
    | nil => exact ⟨[], .nil, .nil⟩
    | cons first _ ih =>
      obtain ⟨between, left, right⟩ := first
      obtain ⟨betweens, lefts, rights⟩ := ih
      exact ⟨between :: betweens, .cons left lefts, .cons right rights⟩
  · rintro ⟨betweens, lefts, rights⟩
    induction lefts generalizing values with
    | nil =>
      cases rights
      exact .nil
    | cons left _ ih =>
      cases rights with
      | cons right rights => exact .cons ⟨_, left, right⟩ (ih rights)

theorem getElem?_rel {α β : Type} {R : α → β → Prop} {parts : List α} {parts' : List β}
    (related : List.Forall₂ R parts parts') (index : Nat) :
    Option.Rel R parts[index]? parts'[index]? := by
  induction related generalizing index with
  | nil => exact .none
  | cons first _ ih =>
    cases index with
    | zero => exact .some first
    | succ index => simpa using ih index

theorem eq_singleton {α : Type} {R : α → α → Prop} {part : α} {parts' : List α}
    (related : List.Forall₂ R [part] parts') (keeps : ∀ part', R part part' → part' = part) :
    parts' = [part] := by
  obtain ⟨part', rest, first, none, rfl⟩ := List.forall₂_cons_left_iff.1 related
  rw [List.forall₂_nil_left_iff.1 none, keeps part' first]

theorem rel_none_iff {α β : Type} {R : α → β → Prop} {part' : Option β} :
    Option.Rel R none part' ↔ none = part' := by
  constructor
  · intro related
    cases related
    rfl
  · rintro rfl
    exact .none

theorem rel_some_iff {α β : Type} {R : α → β → Prop} {part : α} {part' : Option β} :
    Option.Rel R (some part) part' ↔ ∃ found, R part found ∧ some found = part' := by
  constructor
  · intro related
    cases related with
    | some related => exact ⟨_, related, rfl⟩
  · rintro ⟨_, related, rfl⟩
    exact .some related

theorem exists_of_rel_some {α β : Type} {R : α → β → Prop} {part : Option α} {part' : β}
    (related : Option.Rel R part (some part')) : ∃ found, part = some found ∧ R found part' := by
  cases related with
  | some related => exact ⟨_, rfl, related⟩

theorem rel_imp_of_mem {α β : Type} {R S : α → β → Prop} {part : Option α} {part' : Option β}
    (weaker : ∀ found ∈ part, ∀ found', R found found' → S found found')
    (related : Option.Rel R part part') : Option.Rel S part part' := by
  cases related with
  | none => exact .none
  | some related => exact .some (weaker _ rfl _ related)

namespace BoolExpr

theorem sizeOf_child {node : BoolExpr} {child : Expr} (member : child ∈ node.children) :
    sizeOf child < sizeOf (Expr.bool node) := by
  cases node <;>
    simp only [children, List.mem_cons, List.not_mem_nil, or_false, List.mem_map] at member
  case inList span value candidates =>
    rcases member with rfl | ⟨candidate, listed, rfl⟩
    · simp +arith
    · have smaller := List.sizeOf_lt_of_mem listed
      simp only [Expr.bool.sizeOf_spec, Expr.value.sizeOf_spec, inList.sizeOf_spec]
      omega
  all_goals
    rcases member with rfl | rfl | rfl <;> simp +arith

end BoolExpr

namespace ValueExpr

theorem sizeOf_child {node : ValueExpr} {child : Expr} (member : child ∈ node.children) :
    sizeOf child < sizeOf (Expr.value node) := by
  cases node <;>
    simp only [children, List.mem_cons, List.not_mem_nil, or_false, List.mem_map] at member
  case call span name arguments binding =>
    obtain ⟨argument, listed, rfl⟩ := member
    have smaller := List.sizeOf_lt_of_mem listed
    simp only [Expr.value.sizeOf_spec, call.sizeOf_spec]
    omega
  case aggregation span op count target condition scope quanta scopePath =>
    cases count <;> cases condition <;> cases quanta <;>
      simp only [Option.toList, List.map, List.nil_append, List.cons_append, List.mem_cons,
        List.not_mem_nil, or_false] at member <;>
      rcases member with rfl | rfl | rfl | rfl <;> simp +arith
  all_goals
    rcases member with rfl | rfl <;> simp +arith

end ValueExpr

namespace Expr

theorem sizeOf_child {expr child : Expr} (member : child ∈ expr.children) :
    sizeOf child < sizeOf expr := by
  cases expr with
  | bool node => exact BoolExpr.sizeOf_child member
  | value node => exact ValueExpr.sizeOf_child member

/-- What holds of a node whenever it holds of its children holds of every tree. -/
@[elab_as_elim]
theorem byChildren {motive : Expr → Prop}
    (node : ∀ expr, (∀ child ∈ expr.children, motive child) → motive expr) (expr : Expr) :
    motive expr :=
  node expr fun child _ => byChildren node child
termination_by sizeOf expr
decreasing_by exact sizeOf_child ‹_›

/-- The property holds at every node of the tree. -/
inductive Everywhere (P : Expr → Prop) : Expr → Prop where
  | node {expr : Expr} (here : P expr) (below : ∀ child ∈ expr.children, Everywhere P child) :
    Everywhere P expr

namespace Everywhere

variable {P Q : Expr → Prop} {expr : Expr}

theorem here (holds : Everywhere P expr) : P expr := by
  cases holds with
  | node here _ => exact here

theorem child {child : Expr} (holds : Everywhere P expr) (member : child ∈ expr.children) :
    Everywhere P child := by
  cases holds with
  | node _ below => exact below child member

theorem imp (holds : Everywhere P expr) (weaker : ∀ expr, P expr → Q expr) :
    Everywhere Q expr := by
  induction holds with
  | node here _ ih => exact .node (weaker _ here) ih

theorem and (holds : Everywhere P expr) (also : Everywhere Q expr) :
    Everywhere (fun expr => P expr ∧ Q expr) expr := by
  induction holds with
  | node here _ ih =>
    exact .node ⟨here, also.here⟩ fun child member => ih child member (also.child member)

/-- A property of a node that follows from another one of it and its children. -/
theorem of_children (holds : Everywhere P expr)
    (step : ∀ expr, P expr → (∀ child ∈ expr.children, P child) → Q expr) :
    Everywhere Q expr := by
  induction holds with
  | node here below ih =>
    exact .node (step _ here fun child member => (below child member).here) ih

/-- What holds everywhere holds everywhere in every part. -/
theorem nested (holds : Everywhere P expr) : Everywhere (Everywhere P) expr := by
  induction holds with
  | node here below ih => exact .node (.node here below) ih

end Everywhere

end Expr

end EventQuery
