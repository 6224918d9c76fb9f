import EventQuery.Proofs.Outcome
import EventQuery.Statement.Json
import Mathlib.Data.List.Nodup

/-!
The numbers of the steps of a funnel. However a funnel was put together, no two of its steps
have the same number. A step without a number of its own gets one below all others: it is
negative and new, and the step comes behind the steps that are there, as long as none of them
has the least of all numbers. Below that one the numbers start again at the greatest.
-/
namespace EventQuery.Funnel

open Outcome

variable {funnel start : Funnel} {steps : List Step} {step : Step} {condition : BoolExpr}

/-! ### Steps under their numbers -/

theorem insertStep_of_fresh (fresh : step.id ∉ steps.map Step.id) :
    insertStep steps step = steps ++ [step] := by
  have unknown : ¬ steps.any (fun known => known.id == step.id) = true := by
    rw [List.any_eq_true]
    rintro ⟨known, listed, same⟩
    exact fresh (beq_iff_eq.1 same ▸ List.mem_map_of_mem listed)
  rw [insertStep, if_neg unknown]

/-- A step with a known number takes the place of the one that had it. -/
theorem map_id_insertStep_of_known (known : step.id ∈ steps.map Step.id) :
    (insertStep steps step).map Step.id = steps.map Step.id := by
  obtain ⟨other, listed, same⟩ := List.mem_map.1 known
  have found : steps.any (fun known => known.id == step.id) = true :=
    List.any_eq_true.2 ⟨other, listed, beq_iff_eq.2 same⟩
  rw [insertStep, if_pos found, List.map_map]
  refine List.map_congr_left fun former _ => ?_
  by_cases equal : former.id = step.id
  · simp [equal]
  · simp [equal]

theorem nodup_insertStep (distinct : (steps.map Step.id).Nodup) :
    ((insertStep steps step).map Step.id).Nodup := by
  by_cases known : step.id ∈ steps.map Step.id
  · rwa [map_id_insertStep_of_known known]
  · rw [insertStep_of_fresh known, List.map_append]
    exact distinct.append (List.nodup_singleton _) (by simpa using known)

/-! ### The next number -/

theorem mem_negative {id : Int64} :
    id ∈ funnel.stepIds.filter (· < 0) ↔ id ∈ funnel.stepIds ∧ id < 0 := by simp

/-- The least of all numbers is the only one that nothing is below. -/
theorem pred_lt {lowest : Int64} (above : lowest ≠ Int64.minValue) : lowest - 1 < lowest := by
  have apart : lowest.toInt ≠ -2 ^ 63 := by
    rw [← Int64.toInt_minValue]
    exact fun same => above (Int64.toInt_inj.1 same)
  have bounds := lowest.le_toInt
  have limit := lowest.toInt_lt
  rw [Int64.lt_iff_toInt_lt, Int64.toInt_sub]
  have one : (1 : Int64).toInt = 1 := by decide
  rw [one, Int.bmod_eq_of_le (by omega) (by omega)]
  omega

/-- Unless the least number is taken, the next one is below zero and below all that are. -/
theorem nextId_lt (free : Int64.minValue ∉ funnel.stepIds) :
    funnel.nextId < 0 ∧ ∀ id ∈ funnel.stepIds, funnel.nextId < id := by
  unfold nextId
  split
  case h_1 lowest found =>
    obtain ⟨listed, least⟩ := List.min?_eq_some_iff.1 found
    obtain ⟨listed, negative⟩ := mem_negative.1 listed
    have below := pred_lt fun same => free (same ▸ listed)
    rw [Int64.lt_iff_toInt_lt] at negative below ⊢
    refine ⟨by omega, fun id known => ?_⟩
    rw [Int64.lt_iff_toInt_lt]
    by_cases sign : id < 0
    · have := Int64.le_iff_toInt_le.1 (least id (mem_negative.2 ⟨known, sign⟩))
      omega
    · rw [Int64.lt_iff_toInt_lt] at sign
      omega
  case h_2 none =>
    have natural := List.min?_eq_none_iff.1 none
    refine ⟨by decide, fun id known => ?_⟩
    have sign : ¬ id < 0 := fun negative =>
      List.not_mem_nil (natural ▸ mem_negative.2 ⟨known, negative⟩)
    rw [Int64.lt_iff_toInt_lt] at sign ⊢
    have zero : (0 : Int64).toInt = 0 := by decide
    have minusOne : (-1 : Int64).toInt = -1 := by decide
    omega

theorem nextId_of_least (taken : Int64.minValue ∈ funnel.stepIds) :
    funnel.nextId = Int64.maxValue := by
  have lowest : (funnel.stepIds.filter (· < 0)).min? = some Int64.minValue :=
    List.min?_eq_some_iff.2 ⟨mem_negative.2 ⟨taken, by decide⟩, fun id _ =>
      Int64.le_iff_toInt_le.2 id.minValue_le_toInt⟩
  rw [nextId, lowest]
  decide

/-! ### Funnels that are put together -/

/-- What is done to a funnel to give it its steps. -/
inductive Edit where
  | step (step : Step)
  | boundary (edge : Edge) (relation : String)
  | untriggered (condition : BoolExpr)

def edit (funnel : Funnel) : Edit → Funnel
  | .step step => funnel.withStep step
  | .boundary edge relation => funnel.addBoundary edge relation
  | .untriggered condition => funnel.addUntriggered condition

def run (funnel : Funnel) (edits : List Edit) : Funnel := edits.foldl edit funnel

/-- A funnel nothing was done to: it has no steps yet, or was decoded. -/
def IsNew (funnel : Funnel) : Prop := funnel.steps = [] ∨ ∃ json, ofJson json = .ok funnel

theorem length_eraseDups_le (ids : List Int64) : ids.eraseDups.length ≤ ids.length := by
  match ids with
  | [] => exact Nat.zero_le _
  | id :: rest =>
    have kept := List.length_filter_le (fun other => !other == id) rest
    have others := length_eraseDups_le (rest.filter fun other => !other == id)
    rw [List.eraseDups_cons, List.length_cons, List.length_cons]
    omega
termination_by ids.length
decreasing_by
  rw [List.length_cons]
  omega

/-- Numbers of which none is lost when repeated ones are left out. -/
theorem nodup_of_length_eraseDups {ids : List Int64} (same : ids.eraseDups.length = ids.length) :
    ids.Nodup := by
  induction ids with
  | nil => exact List.nodup_nil
  | cons id rest ih =>
    rw [List.eraseDups_cons, List.length_cons, List.length_cons, Nat.add_right_cancel_iff] at same
    have kept := List.length_filter_le (fun other => !other == id) rest
    have others := length_eraseDups_le (rest.filter fun other => !other == id)
    have all : ∀ other ∈ rest, (!other == id) = true :=
      List.length_filter_eq_length_iff.1 (by omega)
    rw [List.filter_eq_self.2 all] at same
    refine List.nodup_cons.2 ⟨fun again => ?_, ih same⟩
    simpa using all id again

theorem nodup_of_isNew (new : funnel.IsNew) : funnel.stepIds.Nodup := by
  rcases new with empty | ⟨json, decodes⟩
  · rw [stepIds, empty]
    exact List.nodup_nil
  · simp only [ofJson, Json.Record.required, bind_eq_ok, pure_eq_ok] at decodes
    obtain ⟨record, -, _, -, _, -, _, -, _, -, steps, listed, _, -, _, -, _, -, _, -, rfl⟩ := decodes
    split at listed
    · rename_i value _
      simp only [stepsOfJson, bind_eq_ok] at listed
      obtain ⟨steps', -, checked⟩ := listed
      split at checked
      case isTrue same =>
        cases checked
        exact nodup_of_length_eraseDups (same.trans (List.length_map _).symm)
      case isFalse => cases checked
    · cases listed

theorem nodup_edit (distinct : funnel.stepIds.Nodup) (edit : Edit) :
    (funnel.edit edit).stepIds.Nodup := by
  cases edit with
  | step step => exact nodup_insertStep distinct
  | boundary edge relation => exact nodup_insertStep distinct
  | untriggered condition => exact nodup_insertStep distinct

theorem nodup_run (distinct : funnel.stepIds.Nodup) (edits : List Edit) :
    (funnel.run edits).stepIds.Nodup := by
  induction edits generalizing funnel with
  | nil => exact distinct
  | cons edit edits ih => exact ih (nodup_edit distinct edit)

/-! ### New steps -/

/-- One funnel becomes another by a single step more: its number is negative and was free, and it
stands behind all other steps. Nothing else is changed. -/
structure Gains (funnel : Funnel) (id : Int64) (condition : BoolExpr) (after : Funnel) : Prop where
  negative : id < 0
  fresh : id ∉ funnel.stepIds
  behind : after = { funnel with steps := funnel.steps ++ [⟨.none, id, condition, none⟩] }
  single : after.steps.filter (fun step => step.id == id) = [⟨.none, id, condition, none⟩]

theorem gains_addUntriggered (free : Int64.minValue ∉ funnel.stepIds) (condition : BoolExpr) :
    funnel.Gains funnel.nextId condition (funnel.addUntriggered condition) := by
  obtain ⟨negative, below⟩ := nextId_lt free
  have fresh : funnel.nextId ∉ funnel.stepIds := fun known => Int64.lt_irrefl (below _ known)
  have behind : funnel.addUntriggered condition =
      { funnel with steps := funnel.steps ++ [⟨.none, funnel.nextId, condition, none⟩] } := by
    rw [addUntriggered, withStep, insertStep_of_fresh fresh]
  refine ⟨negative, fresh, behind, ?_⟩
  have others : funnel.steps.filter (fun step => step.id == funnel.nextId) = [] :=
    List.filter_eq_nil_iff.2 fun step listed same =>
      fresh (beq_iff_eq.1 same ▸ List.mem_map_of_mem listed)
  simp [behind, others]

theorem gains_addUntriggered_iff (condition : BoolExpr) :
    funnel.Gains funnel.nextId condition (funnel.addUntriggered condition) ↔
      Int64.minValue ∉ funnel.stepIds := by
  refine ⟨fun gains taken => ?_, fun free => gains_addUntriggered free condition⟩
  have negative := gains.negative
  rw [nextId_of_least taken] at negative
  exact absurd negative (by decide)

/-- The funnel is what some edits make of a new one. -/
def Reachable (funnel : Funnel) : Prop :=
  ∃ (start : Funnel) (edits : List Edit), start.IsNew ∧ start.run edits = funnel

/-- Both ways to add a step under a new number do so, to every funnel that was put together in any
way, exactly if none of its steps has the least of all numbers. If one has it, the next number is
the greatest; a step that has that one is lost. -/
theorem gains_iff_least_free (reachable : funnel.Reachable) :
    funnel.stepIds.Nodup ∧
    (∀ condition, funnel.Gains funnel.nextId condition (funnel.addUntriggered condition) ↔
      Int64.minValue ∉ funnel.stepIds) ∧
    (∀ edge relation, funnel.Gains funnel.nextId (.ofBoundary edge relation)
        (funnel.addBoundary edge relation) ↔ Int64.minValue ∉ funnel.stepIds) ∧
    (Int64.minValue ∈ funnel.stepIds → funnel.nextId = Int64.maxValue ∧
      (Int64.maxValue ∈ funnel.stepIds → ∀ condition,
        (funnel.addUntriggered condition).stepIds = funnel.stepIds)) := by
  obtain ⟨start, edits, new, rfl⟩ := reachable
  refine ⟨nodup_run (nodup_of_isNew new) edits, gains_addUntriggered_iff,
    fun edge relation => gains_addUntriggered_iff _, fun taken => ?_⟩
  have next := nextId_of_least taken
  refine ⟨next, fun known condition => map_id_insertStep_of_known ?_⟩
  rwa [next]

private def vacant : Funnel :=
  ⟨.none, "checkout", .conversion, [], [], [], .ofStep 1, none, none, [], []⟩

private def always : BoolExpr := .constant .none (.boolean true)

private def numbered (id : Int64) : Edit := .step ⟨.none, id, always, none⟩

private def aboveLeast : Funnel :=
  vacant.run [numbered Int64.maxValue, numbered (Int64.minValue + 1)]

/-- The last number that is free below another one is taken. -/
theorem gains_iff_least_free_edge : aboveLeast.Reachable ∧
    aboveLeast.Gains Int64.minValue (.ofBoundary .start "sessions")
      (aboveLeast.addBoundary .start "sessions") := by
  have reachable : aboveLeast.Reachable := ⟨vacant, _, .inl rfl, rfl⟩
  have adds := (gains_iff_least_free reachable).2.2.1
  exact ⟨reachable, (adds .start "sessions").2 (by decide)⟩

private def least : Funnel := vacant.run [numbered Int64.minValue, numbered Int64.maxValue]

/-- Behind the least number comes the greatest, and the step that had it is replaced. -/
theorem not_gains_least : least.Reachable ∧ least.nextId = Int64.maxValue ∧
    (least.addUntriggered always).stepIds = [Int64.minValue, Int64.maxValue] ∧
    ¬ least.Gains least.nextId always (least.addUntriggered always) := by
  have next : least.nextId = Int64.maxValue := by decide
  refine ⟨⟨vacant, _, .inl rfl, rfl⟩, next, by decide, fun gains => ?_⟩
  have negative := gains.negative
  rw [next] at negative
  exact absurd negative (by decide)

end EventQuery.Funnel
