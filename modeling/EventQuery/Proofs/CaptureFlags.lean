import EventQuery.Pattern.Settle
import EventQuery.Proofs.Outcome

/-!
What settling a pattern means. A settled node captures exactly if some leaf below it does, so
the checks of a list, which look at the flags of its settled items, are about the leaves of the
pattern as it was written. A pattern is accepted if all its nodes are well formed and one of
its leaves captures; settled flags are what they say, so they settle to themselves.
-/
namespace EventQuery

open Outcome

namespace Pattern

/-- What holds of leaves, of a repetition if it holds of its child, and of a list if it holds
of its items, holds of every pattern. -/
@[elab_as_elim]
theorem byParts {motive : Pattern → Prop}
    (step : ∀ span id capturing, motive (step span id capturing))
    (list : ∀ span op items capturing, (∀ item ∈ items, motive item) →
      motive (list span op items capturing))
    (repetition : ∀ span least most child capturing, motive child →
      motive (repetition span least most child capturing))
    (bracket : ∀ span negating steps capturing, motive (bracket span negating steps capturing)) :
    ∀ pattern, motive pattern
  | .step span id capturing => step span id capturing
  | .list span op items capturing =>
    list span op items capturing fun item _ => byParts step list repetition bracket item
  | .repetition span least most child capturing =>
    repetition span least most child capturing (byParts step list repetition bracket child)
  | .bracket span negating steps capturing => bracket span negating steps capturing
termination_by pattern => sizeOf pattern
decreasing_by
  · have smaller := List.sizeOf_lt_of_mem ‹item ∈ items›
    simp only [Pattern.list.sizeOf_spec]
    omega
  · simp only [Pattern.repetition.sizeOf_spec]
    omega

/-! ### Leaves -/

mutual

/-- The steps and bracket sets of a pattern in order. -/
def leaves : Pattern → List Pattern
  | step span id capturing => [step span id capturing]
  | list _ _ items _ => leavesOfAll items
  | repetition _ _ _ child _ => child.leaves
  | bracket span negating steps capturing => [bracket span negating steps capturing]

def leavesOfAll : List Pattern → List Pattern
  | [] => []
  | item :: rest => item.leaves ++ leavesOfAll rest

end

/-- Whether some leaf of the pattern captures. -/
def captures (pattern : Pattern) : Bool := pattern.leaves.any capturing

theorem captures_step {span : Span} {id : Int64} {capturing : Bool} :
    (step span id capturing).captures = capturing := Bool.or_false _

theorem captures_bracket {span : Span} {negating : Bool} {steps : List Int64} {capturing : Bool} :
    (bracket span negating steps capturing).captures = capturing := Bool.or_false _

theorem captures_repetition {span : Span} {least : Int64} {most : Option Int64} {child : Pattern}
    {capturing : Bool} : (repetition span least most child capturing).captures = child.captures :=
  rfl

private theorem any_leavesOfAll (items : List Pattern) :
    (leavesOfAll items).any capturing = items.any captures := by
  induction items with
  | nil => rfl
  | cons item rest ih => rw [leavesOfAll, List.any_append, ih, List.any_cons, captures]

theorem captures_list {span : Span} {op : ListOp} {items : List Pattern} {capturing : Bool} :
    (list span op items capturing).captures = items.any captures := any_leavesOfAll items

/-! ### Well-formed patterns -/

/-- What the nodes of a pattern have to be like. -/
inductive WellFormed (known : List Int64) : Pattern → Prop where
  | step {span id capturing} (defined : id ∈ known) : WellFormed known (step span id capturing)
  | list {span op items capturing} (nonempty : items ≠ [])
      (each : ∀ item ∈ items, WellFormed known item)
      /- A group that was written as not capturing contains nothing that captures. -/
      (silent : capturing = false → (list span op items capturing).captures = false)
      (alternatives : op = .alternatives →
        (∀ item ∈ items, item.captures = true) ∨ ∀ item ∈ items, item.captures = false)
      (edges : (list span op items capturing).captures = true →
        ∀ edge, items.head? = some edge ∨ items.getLast? = some edge → edge.captures = true) :
      WellFormed known (list span op items capturing)
  | repetition {span least most child capturing} (least_nonneg : 0 ≤ least)
      (least_le : ∀ limit, most = some limit → least ≤ limit) (inner : WellFormed known child)
      (silent : capturing = false →
        (repetition span least most child capturing).captures = false) :
      WellFormed known (repetition span least most child capturing)
  | bracket {span negating steps capturing} (nonempty : steps ≠ [])
      (defined : ∀ id ∈ steps, id ∈ known) :
      WellFormed known (bracket span negating steps capturing)

mutual

/-- The pattern in which a list or a repetition captures if some leaf below it does. -/
def settled : Pattern → Pattern
  | step span id capturing => step span id capturing
  | list span op items _ => list span op (settledAll items) ((leavesOfAll items).any capturing)
  | repetition span least most child _ => repetition span least most child.settled child.captures
  | bracket span negating steps capturing => bracket span negating steps capturing

def settledAll : List Pattern → List Pattern
  | [] => []
  | item :: rest => item.settled :: settledAll rest

end

theorem settledAll_eq_map (items : List Pattern) : settledAll items = items.map settled := by
  induction items with
  | nil => rfl
  | cons item rest ih => rw [settledAll, ih, List.map_cons]

theorem settled_list {span : Span} {op : ListOp} {items : List Pattern} {capturing : Bool} :
    (list span op items capturing).settled =
      list span op (items.map settled) (items.any captures) := by
  rw [settled, settledAll_eq_map, any_leavesOfAll]

/-- A settled flag tells whether some leaf of the pattern captures. -/
theorem capturing_settled (pattern : Pattern) : pattern.settled.capturing = pattern.captures := by
  cases pattern with
  | step => exact captures_step.symm
  | list => rw [settled_list, captures_list, capturing]
  | repetition => rfl
  | bracket => exact captures_bracket.symm

private theorem capturing_comp_settled : capturing ∘ settled = captures :=
  funext capturing_settled

theorem any_capturing_settled (items : List Pattern) :
    (items.map settled).any capturing = items.any captures := by
  rw [List.any_map, capturing_comp_settled]

/-- Settling leaves the leaves alone. -/
theorem captures_settled (pattern : Pattern) : pattern.settled.captures = pattern.captures := by
  induction pattern using byParts with
  | step => rfl
  | list span op items capturing ih =>
    rw [settled_list, captures_list, captures_list, List.any_map, Bool.eq_iff_iff, List.any_eq_true,
      List.any_eq_true]
    exact exists_congr fun item => and_congr_right fun listed => by
      rw [Function.comp_apply, ih item listed]
  | repetition span least most child capturing ih => exact ih
  | bracket => rfl

private theorem any_captures_settled (items : List Pattern) :
    (items.map settled).any captures = items.any captures := by
  rw [List.any_map, show captures ∘ settled = captures from funext captures_settled]

/-! ### Checks of a node -/

variable {known : List Int64} {span : Span}

theorem checkKnown_eq_ok {id : Int64} : checkKnown known span id = .ok () ↔ id ∈ known := by
  unfold checkKnown
  by_cases defined : known.contains id = true <;> simp_all

theorem checkBracket_eq_ok {steps : List Int64} :
    checkBracket known span steps = .ok () ↔ steps ≠ [] ∧ ∀ id ∈ steps, id ∈ known := by
  have members : steps.forM (checkKnown known span) = .ok () ↔ ∀ id ∈ steps, id ∈ known := by
    simp only [forM_eq_ok, checkKnown_eq_ok]
  unfold checkBracket
  cases steps with
  | nil => simp
  | cons first rest => simpa using members

theorem checkBounds_eq_ok {least : Int64} {most : Option Int64} :
    checkBounds span least most = .ok () ↔
      0 ≤ least ∧ ∀ limit, most = some limit → least ≤ limit := by
  unfold checkBounds
  by_cases negative : least < 0
  · simp [negative, Int64.not_le.2 negative]
  · have nonneg := Int64.not_lt.1 negative
    cases most with
    | none => simp [negative, nonneg]
    | some limit =>
      by_cases below : limit < least
      · simp [negative, nonneg, below, Int64.not_le.2 below]
      · simp [negative, nonneg, below, Int64.not_lt.1 below]

theorem checkItems_eq_ok {op : ListOp} {items : List Pattern} {capturing : Bool} :
    checkItems span op items capturing = .ok () ↔
      (capturing = false → ∀ item ∈ items, item.capturing = false) ∧
      (op = .alternatives →
        (∀ item ∈ items, item.capturing = true) ∨ ∀ item ∈ items, item.capturing = false) := by
  have silent : (∀ item ∈ items, item.capturing = false) ↔ items.any Pattern.capturing = false := by
    simp
  have loud : (∀ item ∈ items, item.capturing = true) ↔ items.all Pattern.capturing = true := by
    simp
  rw [silent, loud]
  unfold checkItems
  generalize items.any Pattern.capturing = anyCaptures
  generalize items.all Pattern.capturing = allCapture
  cases op <;> cases capturing <;> cases anyCaptures <;> cases allCapture <;> simp

theorem checkEdges_eq_ok {items : List Pattern} {capturing : Bool} :
    checkEdges items capturing = .ok () ↔
      (capturing = true → ∀ edge, items.head? = some edge ∨ items.getLast? = some edge →
        edge.capturing = true) := by
  have edges (edge : Pattern) : edge ∈ items.head?.toList ++ items.getLast?.toList ↔
      items.head? = some edge ∨ items.getLast? = some edge := by
    rw [List.mem_append, Option.mem_toList, Option.mem_toList]
  unfold checkEdges
  cases capturing with
  | false => simp
  | true =>
    simp only [if_true, true_implies, ← edges]
    split
    case h_1 edge found =>
      have silent := List.find?_some found
      have listed := List.mem_of_find?_eq_some found
      simp only [throw_eq_ok, false_iff, not_forall]
      exact ⟨edge, listed, by simpa using silent⟩
    case h_2 none =>
      have loud := List.find?_eq_none.1 (Option.eq_none_iff_forall_ne_some.2 none)
      simpa using loud

/-! ### Settling -/

theorem settleAll_eq_ok {items items' : List Pattern} :
    settleAll known items = .ok items' ↔
      List.Forall₂ (fun item item' => settle known item = .ok item') items items' := by
  induction items generalizing items' with
  | nil => cases items' <;> simp [settleAll]
  | cons item rest ih =>
    simp only [settleAll, bind_eq_ok, pure_eq_ok, Stopped.within_eq_ok, ih]
    exact forall₂_cons_eq_ok

/-- A list settles if it is not empty, its items settle, and the settled items pass the checks
of the list. -/
theorem settle_list {op : ListOp} {items : List Pattern} {capturing : Bool} {pattern' : Pattern} :
    settle known (list span op items capturing) = .ok pattern' ↔
      items ≠ [] ∧ ∃ items',
        List.Forall₂ (fun item item' => settle known item = .ok item') items items' ∧
        checkItems span op items' capturing = .ok () ∧
        checkEdges items' (items'.any Pattern.capturing) = .ok () ∧
        list span op items' (items'.any Pattern.capturing) = pattern' := by
  rw [settle]
  cases items with
  | nil => simp
  | cons first rest =>
    simp only [List.isEmpty_cons, Bool.false_eq_true, if_false, bind_eq_ok, pure_eq_ok,
      Stopped.within_eq_ok, Stopped.check_eq_ok, settleAll_eq_ok, Unique.exists_iff,
      PUnit.default_eq_unit, ne_eq, reduceCtorEq, not_false_eq_true, true_and]

theorem settle_repetition {least : Int64} {most : Option Int64} {child : Pattern}
    {capturing : Bool} {pattern' : Pattern} :
    settle known (repetition span least most child capturing) = .ok pattern' ↔
      checkBounds span least most = .ok () ∧ ∃ child', settle known child = .ok child' ∧
        (capturing = false → child'.capturing = false) ∧
        repetition span least most child' child'.capturing = pattern' := by
  rw [settle]
  simp only [bind_eq_ok, Stopped.within_eq_ok, Stopped.check_eq_ok, Unique.exists_iff,
    PUnit.default_eq_unit]
  refine and_congr_right fun _ => exists_congr fun child' => and_congr_right fun _ => ?_
  cases capturing <;> cases child'.capturing <;> simp

/-- What the checks of a list say about the leaves of its items. -/
private theorem checkItems_settled {op : ListOp} {items : List Pattern} {capturing : Bool} :
    checkItems span op (items.map settled) capturing = .ok () ↔
      (capturing = false → (list span op items capturing).captures = false) ∧
      (op = .alternatives →
        (∀ item ∈ items, item.captures = true) ∨ ∀ item ∈ items, item.captures = false) := by
  simp only [checkItems_eq_ok, List.forall_mem_map, capturing_settled, captures_list,
    List.any_eq_false, Bool.not_eq_true]

private theorem checkEdges_settled {items : List Pattern} :
    checkEdges (items.map settled) (items.any captures) = .ok () ↔
      (items.any captures = true →
        ∀ edge, items.head? = some edge ∨ items.getLast? = some edge → edge.captures = true) := by
  simp only [checkEdges_eq_ok, forall_exists_index, and_imp, List.head?_map, List.getLast?_map,
    Option.map_eq_some_iff, or_imp, forall_and, forall_apply_eq_imp_iff₂, capturing_settled]

private theorem forall₂_settle {items items' : List Pattern}
    (each : ∀ item ∈ items, ∀ {item'},
      settle known item = .ok item' ↔ item.WellFormed known ∧ item.settled = item') :
    List.Forall₂ (fun item item' => settle known item = .ok item') items items' ↔
      (∀ item ∈ items, item.WellFormed known) ∧ items.map settled = items' := by
  induction items generalizing items' with
  | nil => cases items' <;> simp
  | cons item rest ih =>
    obtain ⟨first, others⟩ := List.forall_mem_cons.1 each
    rw [List.forall₂_cons_left_iff, List.forall_mem_cons, List.map_cons]
    constructor
    · rintro ⟨item', rest', settles, settle, rfl⟩
      obtain ⟨wellFormed, rfl⟩ := first.1 settles
      obtain ⟨areWellFormed, rfl⟩ := (ih others).1 settle
      exact ⟨⟨wellFormed, areWellFormed⟩, rfl⟩
    · rintro ⟨⟨wellFormed, areWellFormed⟩, rfl⟩
      exact ⟨_, _, first.2 ⟨wellFormed, rfl⟩, (ih others).2 ⟨areWellFormed, rfl⟩, rfl⟩

/-- Settling succeeds on well-formed patterns, and writes the flags that tell which nodes have
a leaf below them that captures. -/
theorem settle_eq_ok {pattern pattern' : Pattern} :
    settle known pattern = .ok pattern' ↔
      pattern.WellFormed known ∧ pattern.settled = pattern' := by
  induction pattern using byParts generalizing pattern' with
  | step span id capturing =>
    simp only [settle, bind_eq_ok, pure_eq_ok, Stopped.check_eq_ok, Unique.exists_iff,
      PUnit.default_eq_unit, checkKnown_eq_ok]
    constructor
    · rintro ⟨defined, rfl⟩
      exact ⟨.step defined, rfl⟩
    · rintro ⟨⟨defined⟩, rfl⟩
      exact ⟨defined, rfl⟩
  | bracket span negating steps capturing =>
    simp only [settle, bind_eq_ok, pure_eq_ok, Stopped.check_eq_ok, Unique.exists_iff,
      PUnit.default_eq_unit, checkBracket_eq_ok]
    constructor
    · rintro ⟨⟨nonempty, defined⟩, rfl⟩
      exact ⟨.bracket nonempty defined, rfl⟩
    · rintro ⟨wellFormed, rfl⟩
      cases wellFormed with
      | bracket nonempty defined => exact ⟨⟨nonempty, defined⟩, rfl⟩
  | repetition span least most child capturing ih =>
    -- The check reads the flag of the child that was settled; that flag tells what is captured.
    rw [settle_repetition, checkBounds_eq_ok]
    constructor
    · rintro ⟨⟨least_nonneg, least_le⟩, child', settles, silent, rfl⟩
      obtain ⟨inner, rfl⟩ := ih.1 settles
      rw [capturing_settled] at silent ⊢
      exact ⟨.repetition least_nonneg least_le inner silent, rfl⟩
    · rintro ⟨wellFormed, rfl⟩
      cases wellFormed with
      | repetition least_nonneg least_le inner silent =>
        rw [settled, ← capturing_settled]
        rw [captures_repetition, ← capturing_settled] at silent
        exact ⟨⟨least_nonneg, least_le⟩, _, ih.2 ⟨inner, rfl⟩, silent, rfl⟩
  | list span op items capturing ih =>
    rw [settle_list, settled_list]
    constructor
    · rintro ⟨nonempty, items', settle, checked, edged, rfl⟩
      obtain ⟨each, rfl⟩ := (forall₂_settle ih).1 settle
      rw [checkItems_settled] at checked
      rw [any_capturing_settled] at edged ⊢
      refine ⟨.list nonempty each checked.1 checked.2 ?_, rfl⟩
      rw [captures_list]
      exact checkEdges_settled.1 edged
    · rintro ⟨wellFormed, rfl⟩
      cases wellFormed with
      | list nonempty each silent alternatives edges =>
        refine ⟨nonempty, _, (forall₂_settle ih).2 ⟨each, rfl⟩,
          checkItems_settled.2 ⟨silent, alternatives⟩, ?_, ?_⟩
        · rw [captures_list] at edges
          rw [any_capturing_settled]
          exact checkEdges_settled.2 edges
        · rw [any_capturing_settled]

/-! ### Settled patterns -/

theorem settled_settled (pattern : Pattern) : pattern.settled.settled = pattern.settled := by
  induction pattern using byParts with
  | step => rfl
  | list span op items capturing ih =>
    have same : (items.map settled).map settled = items.map settled := by
      rw [List.map_map]
      exact List.map_congr_left ih
    rw [settled_list, settled_list, same, any_captures_settled]
  | repetition span least most child capturing ih =>
    rw [settled, settled, ih, captures_settled]
  | bracket => rfl

theorem WellFormed.settled {pattern : Pattern} (wellFormed : pattern.WellFormed known) :
    pattern.settled.WellFormed known := by
  induction wellFormed with
  | step defined => exact .step defined
  | @list span op items capturing nonempty each silent alternatives edges ih =>
    rw [settled_list]
    refine .list (by simpa using nonempty) (List.forall_mem_map.2 ih) ?_ ?_ ?_
    · rw [captures_list, any_captures_settled]
      exact id
    · simpa only [List.forall_mem_map, captures_settled] using alternatives
    · simpa only [captures_list, any_captures_settled, List.head?_map, List.getLast?_map,
        Option.map_eq_some_iff, or_imp, forall_and, forall_exists_index, and_imp,
        forall_apply_eq_imp_iff₂, captures_settled] using edges
  | repetition least_nonneg least_le inner silent ih =>
    exact .repetition least_nonneg least_le ih fun silent => (captures_settled _).trans silent
  | bracket nonempty defined => exact .bracket nonempty defined

theorem validate_eq_ok {pattern pattern' : Pattern} :
    pattern.validate known = .ok pattern' ↔
      pattern.WellFormed known ∧ pattern.captures = true ∧ pattern.settled = pattern' := by
  simp only [validate, bind_eq_ok, settle_eq_ok]
  constructor
  · rintro ⟨_, ⟨wellFormed, rfl⟩, valid⟩
    split at valid
    case isTrue loud => exact ⟨wellFormed, capturing_settled pattern ▸ loud, pure_eq_ok.1 valid⟩
    case isFalse => cases valid
  · rintro ⟨wellFormed, loud, rfl⟩
    refine ⟨_, ⟨wellFormed, rfl⟩, ?_⟩
    rw [if_pos ((capturing_settled pattern).trans loud)]
    rfl

end Pattern

/-- A pattern is accepted exactly if its nodes are well formed over the known steps and one of
its leaves captures. It is then changed in the flags of its lists and repetitions only, which
tell whether a leaf below them captures; the changed pattern is accepted as it is. -/
theorem Pattern.validate_iff_wellFormed (known : List Int64) (pattern pattern' : Pattern) :
    (pattern.validate known = .ok pattern' ↔
      pattern.WellFormed known ∧ pattern.captures = true ∧ pattern.settled = pattern') ∧
    (pattern.validate known = .ok pattern' → pattern'.validate known = .ok pattern') := by
  refine ⟨validate_eq_ok, fun valid => ?_⟩
  obtain ⟨wellFormed, loud, rfl⟩ := validate_eq_ok.1 valid
  exact validate_eq_ok.2
    ⟨wellFormed.settled, (captures_settled pattern).trans loud, settled_settled pattern⟩

/-- Alternatives that were not written as silent but have silent groups for items, between two
steps that capture. -/
theorem Pattern.validate_iff_wellFormed_group :
    let group : Pattern := .list .none .sequence [.step .none 1 false, .step .none 2 false] false
    let around (capturing : Bool) : Pattern := .ofList .sequence
      [.ofStep 1, .list .none .alternatives [group, group] capturing, .ofStep 2]
    (around true).validate [1, 2] = .ok (around false) ∧
      (around false).validate [1, 2] = .ok (around false) := by
  intro group around
  have valid : (around true).validate [1, 2] = .ok (around false) := rfl
  exact ⟨valid, (validate_iff_wellFormed [1, 2] (around true) (around false)).2 valid⟩

end EventQuery
