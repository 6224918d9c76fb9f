import EventQuery.Proofs.CompiledParts
import EventQuery.Proofs.Placement
import EventQuery.Proofs.StatementOrder

/-!
The places of a statement for expressions, with those that are left out. A compilation keeps the
places: what stands in one is bound, validated and optimized, or it is folded to the constant
that a limit or a duration has to be, and only an empty place may be filled in.
-/
namespace EventQuery

open Outcome

/-- What an expression of a statement is there for. Counts and durations have to be known at
compile time. -/
inductive Role where
  | free | count | duration

/-- A place for an expression. -/
structure Slot where
  role : Role
  expr : Option Expr

namespace Slot

def given (expr : Expr) : Slot := ⟨.free, some expr⟩

/-- Whether an expression is a constant or a path, which may be put in an empty place. -/
def isFilling : Expr → Bool
  | .value (.constant ..) => true
  | .value (.path ..) => true
  | _ => false

/-- What stands in the first place is related to what stands in the second one. An empty place
stays so, or is filled. -/
inductive Keeps (R : Role → Expr → Expr → Prop) : Slot → Slot → Prop where
  | given {role expr expr'} (related : R role expr expr') :
    Keeps R ⟨role, some expr⟩ ⟨role, some expr'⟩
  | absent {role} : Keeps R ⟨role, none⟩ ⟨role, none⟩
  | filled {role expr} (simple : isFilling expr = true) : Keeps R ⟨role, none⟩ ⟨role, some expr⟩

namespace Keeps

variable {R S T : Role → Expr → Expr → Prop} {role : Role}

theorem of_rel {α : Type} {wrap : α → Expr} {part part' : Option α}
    (related : Option.Rel (fun part part' => R role (wrap part) (wrap part')) part part') :
    Keeps R ⟨role, part.map wrap⟩ ⟨role, part'.map wrap⟩ := by
  cases related with
  | none => exact .absent
  | some related => exact .given related

theorem map {α : Type} {wrap : α → Expr} {parts parts' : List α}
    (related : List.Forall₂ (fun part part' => R .free (wrap part) (wrap part')) parts parts') :
    List.Forall₂ (Keeps R) (parts.map fun part => .given (wrap part))
      (parts'.map fun part => .given (wrap part)) := by
  rw [List.forall₂_map_left_iff, List.forall₂_map_right_iff]
  exact related.imp fun _ _ related => .given related

theorem imp {slot slot' : Slot} (keeps : Keeps R slot slot')
    (weaker : ∀ {role expr expr'}, slot.expr = some expr → R role expr expr' → S role expr expr') :
    Keeps S slot slot' := by
  cases keeps with
  | given related => exact .given (weaker rfl related)
  | absent => exact .absent
  | filled simple => exact .filled simple

theorem exists_of_given {slot slot' : Slot} (keeps : Keeps R slot slot') {expr : Expr}
    (given : slot.expr = some expr) :
    ∃ expr', slot'.expr = some expr' ∧ R slot.role expr expr' := by
  cases keeps with
  | given related =>
    obtain rfl := Option.some.inj given
    exact ⟨_, rfl, related⟩
  | absent => cases given
  | filled _ => cases given

theorem comp {slot slot' slot'' : Slot} (first : Keeps R slot slot') (second : Keeps S slot' slot'')
    (both : ∀ {role expr mid expr'}, R role expr mid → S role mid expr' → T role expr expr')
    (simple : ∀ {role mid expr'}, S role mid expr' → isFilling mid = true →
      isFilling expr' = true) :
    Keeps T slot slot'' := by
  cases first with
  | given related =>
    cases second with
    | given related' => exact .given (both related related')
  | absent =>
    cases second with
    | absent => exact .absent
    | filled isSimple => exact .filled isSimple
  | filled isSimple =>
    cases second with
    | given related => exact .filled (simple related isSimple)

end Keeps

end Slot

def Trigger.slots (trigger : Trigger) : List Slot :=
  [⟨.free, trigger.timing.map .value⟩, ⟨.duration, trigger.within.map .value⟩,
    ⟨.duration, trigger.after.map .value⟩]

def Step.slots (step : Step) : List Slot :=
  .given (.bool step.condition) :: step.trigger.toList.flatMap Trigger.slots

/-- The places of a statement for expressions. -/
def Statement.slots : Statement → List Slot
  | .query known =>
    known.selections.map (fun selection => .given selection.expr)
      ++ ⟨.free, known.condition.map .bool⟩ :: known.groupBy.map (fun key => .given (.value key))
      ++ [⟨.count, known.limit.map .value⟩]
  | .view known => [.given (.bool known.condition)]
  | .funnel known =>
    ⟨.duration, known.within.map .value⟩ :: ⟨.count, known.limit.map .value⟩
      :: known.steps.flatMap Step.slots
  | .segment known => known.definitions.map fun definition => .given (.bool definition.condition)

namespace Bind

private theorem filterMap_trigger (trigger : Trigger) :
    trigger.slots.filterMap Slot.expr = (trigger.parts.filterMap id).map .value := by
  obtain ⟨_, timing, within, after⟩ := trigger
  cases timing <;> cases within <;> cases after <;> rfl

private theorem filterMap_optional {role : Role} {node : Option ValueExpr} {rest : List Slot} :
    (⟨role, node.map .value⟩ :: rest).filterMap Slot.expr =
      node.toList.map .value ++ rest.filterMap Slot.expr := by
  cases node <;> rfl

/-- The expressions of a statement are what stands in its places. -/
theorem expressions_eq (statement : Statement) :
    expressions statement = statement.slots.filterMap Slot.expr := by
  cases statement with
  | query known =>
    obtain ⟨_, _, _, selections, condition, groupBy, limit, _⟩ := known
    cases condition <;> cases limit <;>
      simp [expressions, Statement.slots, Slot.given, List.filterMap_map]
  | view known => rfl
  | funnel known =>
    obtain ⟨_, _, _, _, _, steps, _, within, limit, _, _⟩ := known
    simp only [expressions, Statement.slots, filterMap_optional, List.filterMap_flatMap,
      List.append_assoc]
    refine congrArg _ (congrArg _ (List.flatMap_congr fun known _ => ?_))
    obtain ⟨_, _, condition, trigger⟩ := known
    cases trigger <;> simp [Step.slots, Slot.given, filterMap_trigger]
  | segment known =>
    simp [expressions, Statement.slots, Slot.given, List.filterMap_map]

end Bind

/-! ### Nodes -/

private theorem Trigger.exists_of_slot {trigger : Trigger} {slot : Slot}
    (listed : slot ∈ trigger.slots) {expr : Expr} (given : slot.expr = some expr) :
    ∃ node ∈ trigger.parts.filterMap id, expr = .value node := by
  simp only [slots, List.mem_cons, List.not_mem_nil, or_false] at listed
  rcases listed with rfl | rfl | rfl <;>
  · obtain ⟨node, isNode, rfl⟩ := Option.map_eq_some_iff.1 given
    exact ⟨node, by simp [parts, isNode], rfl⟩

private theorem Step.visits_of_slot {step : Step} {slot : Slot} (listed : slot ∈ step.slots)
    {expr : Expr} (given : slot.expr = some expr) :
    ∀ visit ∈ Visit.ofExpr expr, visit ∈ Visit.ofStep step := by
  intro visit member
  simp only [slots, List.mem_cons, List.mem_flatMap, Option.mem_toList] at listed
  simp only [Visit.ofStep, List.cons_append, List.mem_cons, List.mem_append, List.mem_flatMap]
  rcases listed with rfl | ⟨trigger, isTrigger, listed⟩
  · obtain rfl := Option.some.inj given
    exact .inr (.inl member)
  · obtain ⟨node, isNode, rfl⟩ := Trigger.exists_of_slot listed given
    refine .inr (.inr ⟨node, ?_, member⟩)
    rwa [isTrigger]

/-- The nodes of the expressions of a statement are nodes of the statement. -/
theorem Statement.visits_of_slot {statement : Statement} {slot : Slot}
    (listed : slot ∈ statement.slots) {expr : Expr} (given : slot.expr = some expr) :
    ∀ visit ∈ Visit.ofExpr expr, visit ∈ Visit.ofStatement statement := by
  intro visit member
  refine List.mem_cons_of_mem _ ?_
  cases statement with
  | query known =>
    simp only [slots, List.mem_append, List.mem_cons, List.mem_map, List.not_mem_nil,
      or_false] at listed
    simp only [Visit.inQuery, List.mem_append, List.mem_flatMap, Option.mem_toList]
    rcases listed with (⟨selection, listed, rfl⟩ | rfl | ⟨key, listed, rfl⟩) | rfl
    · obtain rfl := Option.some.inj given
      exact .inl (.inl (.inl ⟨selection, listed, member⟩))
    · obtain ⟨node, isNode, rfl⟩ := Option.map_eq_some_iff.1 given
      exact .inl (.inl (.inr ⟨node, isNode, member⟩))
    · obtain rfl := Option.some.inj given
      exact .inl (.inr ⟨key, listed, member⟩)
    · obtain ⟨node, isNode, rfl⟩ := Option.map_eq_some_iff.1 given
      exact .inr ⟨node, isNode, member⟩
  | view known =>
    obtain rfl := List.mem_singleton.1 listed
    obtain rfl := Option.some.inj given
    exact member
  | funnel known =>
    simp only [slots, List.mem_cons, List.mem_flatMap] at listed
    simp only [Visit.inFunnel, List.mem_append, List.mem_flatMap, Option.mem_toList]
    rcases listed with rfl | rfl | ⟨step, isStep, listed⟩
    · obtain ⟨node, isNode, rfl⟩ := Option.map_eq_some_iff.1 given
      exact .inl (.inr ⟨node, isNode, member⟩)
    · obtain ⟨node, isNode, rfl⟩ := Option.map_eq_some_iff.1 given
      exact .inr ⟨node, isNode, member⟩
    · exact .inl (.inl (.inl ⟨step, isStep, Step.visits_of_slot listed given visit member⟩))
  | segment known =>
    obtain ⟨definition, isDefinition, rfl⟩ := List.mem_map.1 listed
    obtain rfl := Option.some.inj given
    exact List.mem_flatMap.2 ⟨definition, isDefinition, member⟩

/-! ### Validation and optimization -/

namespace Statement.Becomes

variable {R : Expr → Expr → Prop} {L : ValueExpr → ValueExpr → Prop}

/-- How the expressions in the places of a rewritten statement are related. -/
def InSlot (R : Expr → Expr → Prop) (L : ValueExpr → ValueExpr → Prop) : Role → Expr → Expr → Prop
  | .free, expr, expr' => R expr expr'
  | .count, expr, expr' => ∃ node node', expr = .value node ∧ expr' = .value node' ∧ L node node'
  | .duration, expr, expr' =>
    ∃ node node', expr = .value node ∧ expr' = .value node' ∧ node.FoldsToDuration node'

private theorem free_slot {expr expr' : Expr} (related : R expr expr') :
    Slot.Keeps (InSlot R L) (.given expr) (.given expr') := .given related

private theorem limit_slot {node node' : Option ValueExpr} (related : Option.Rel L node node') :
    Slot.Keeps (InSlot R L) ⟨.count, node.map .value⟩ ⟨.count, node'.map .value⟩ :=
  .of_rel (rel_imp_of_mem (fun _ _ _ related => ⟨_, _, rfl, rfl, related⟩) related)

private theorem duration_slot {node node' : Option ValueExpr}
    (related : Option.Rel ValueExpr.FoldsToDuration node node') :
    Slot.Keeps (InSlot R L) ⟨.duration, node.map .value⟩ ⟨.duration, node'.map .value⟩ :=
  .of_rel (rel_imp_of_mem (fun _ _ _ related => ⟨_, _, rfl, rfl, related⟩) related)

private theorem step_slot {step step' : Step} (becomes : Step.Becomes R step step') :
    List.Forall₂ (Slot.Keeps (InSlot R L)) step.slots step'.slots := by
  refine .cons (free_slot becomes.condition) ?_
  have related := becomes.trigger
  generalize step.trigger = trigger at related
  generalize step'.trigger = trigger' at related
  cases related with
  | none => exact .nil
  | some becomes =>
    exact .cons (.of_rel becomes.timing)
      (.cons (duration_slot becomes.within) (.cons (duration_slot becomes.after) .nil))

/-- A rewritten statement has the places of the first one, with what stands there rewritten. -/
theorem slots {statement statement' : Statement} (becomes : Becomes R L statement statement') :
    List.Forall₂ (Slot.Keeps (InSlot R L)) statement.slots statement'.slots := by
  cases becomes with
  | query _ selections condition groupBy limited =>
    exact List.rel_append (List.rel_append (Slot.Keeps.map selections)
      (.cons (.of_rel condition) (Slot.Keeps.map groupBy))) (.cons (limit_slot limited) .nil)
  | view _ condition => exact .cons (free_slot condition) .nil
  | funnel _ _ steps within limited =>
    exact .cons (duration_slot within)
      (.cons (limit_slot limited) (List.rel_flatMap steps fun _ _ => step_slot))
  | segment _ definitions => exact Slot.Keeps.map definitions

end Statement.Becomes

/-! ### Binding -/

/-- Definitions of anything but functions do not hide where calls lead. -/
theorem Context.Encloses.extended {outer inner : Context} (encloses : outer.Encloses inner)
    {definitions : List (String × Definition)}
    (apart : ∀ entry ∈ definitions, entry.2.isFunction = false) :
    outer.Encloses { inner with symbols := Bind.extended inner.symbols definitions } := by
  refine ⟨encloses.settings, fun name function found => encloses.calls name function ?_⟩
  refine (Bind.lookup?_or_mem_of_extended found).resolve_right fun listed => ?_
  cases apart _ listed

/-- No statement hides a function. -/
theorem Context.Encloses.declaring {context : Context} {statements : List Statement} :
    context.Encloses (context.declaring statements) := by
  refine refl.extended fun entry listed => ?_
  simp only [Bind.declarations, List.mem_filterMap, Option.map_eq_some_iff] at listed
  obtain ⟨statement, -, name, -, rfl⟩ := listed
  cases statement <;> rfl

namespace Bind

variable {outer inner : Context}

private abbrev Bound (outer : Context) : Slot → Slot → Prop :=
  Slot.Keeps fun _ => Expr.BindsInside outer

private theorem bool_bound {node node' : BoolExpr} (encloses : outer.Encloses inner)
    (binds : Stopped.forget (node.bind inner) = .ok node') :
    Expr.BindsInside outer (.bool node) (.bool node') :=
  ⟨inner, encloses, .bool (Stopped.forget_eq_ok.1 binds)⟩

private theorem value_bound {node node' : ValueExpr} (encloses : outer.Encloses inner)
    (binds : Stopped.forget (node.bind inner) = .ok node') :
    Expr.BindsInside outer (.value node) (.value node') :=
  ⟨inner, encloses, .value (Stopped.forget_eq_ok.1 binds)⟩

private theorem option_bound {role : Role} {node node' : Option ValueExpr}
    (encloses : outer.Encloses inner) (binds : option inner node = .ok node') :
    Bound outer ⟨role, node.map .value⟩ ⟨role, node'.map .value⟩ :=
  .of_rel (rel_of_option_mapM binds fun _ _ => value_bound encloses)

/-- A duration that is left out is zero. -/
private theorem duration_bound {node node' : Option ValueExpr}
    (encloses : outer.Encloses inner) (binds : option inner node = .ok node') :
    Bound outer ⟨.duration, node.map .value⟩ ⟨.duration, some (.value (node'.getD zero))⟩ := by
  cases rel_of_option_mapM binds fun _ _ => value_bound encloses with
  | none => exact .filled rfl
  | some bound => exact .given bound

private theorem trigger_bound {known known' : Trigger} {condition : BoolExpr} {paths : List Path}
    {span : Span} (encloses : outer.Encloses inner)
    (binds : trigger inner known condition paths span = .ok known') :
    List.Forall₂ (Bound outer) known.slots known'.slots := by
  simp only [trigger, bind_eq_ok] at binds
  obtain ⟨timing, timed, within, lasting, after, waiting, binds⟩ := binds
  have first : Bound outer ⟨.free, known.timing.map .value⟩ ⟨.free, timing.map .value⟩ :=
    option_bound encloses timed
  have second := duration_bound encloses lasting
  have third := duration_bound encloses waiting
  cases timing with
  | none =>
    simp only [bind_eq_ok, pure_eq_ok] at binds
    obtain ⟨timing, filled, rfl⟩ := binds
    obtain ⟨path, rfl⟩ := eq_path_of_timing filled
    have absent : known.timing = none := by
      cases given : known.timing with
      | none => rfl
      | some node =>
        rw [given] at first
        cases first
    refine .cons ?_ (.cons second (.cons third .nil))
    rw [absent]
    exact .filled rfl
  | some timing =>
    obtain rfl := pure_eq_ok.1 binds
    exact .cons first (.cons second (.cons third .nil))

private theorem step_bound {known known' : Step} {paths : List Path}
    (encloses : outer.Encloses inner) (binds : step inner paths known = .ok known') :
    List.Forall₂ (Bound outer) known.slots known'.slots := by
  simp only [step, bind_eq_ok, pure_eq_ok] at binds
  obtain ⟨condition, met, trigger, triggered, rfl⟩ := binds
  refine .cons (.given (bool_bound (encloses.enter _) met)) ?_
  have related := rel_of_option_mapM triggered fun _ _ => trigger_bound (encloses.enter _)
  simp only
  generalize known.trigger = given at related
  cases related with
  | none => exact .nil
  | some bound => simpa using bound

/-- Parameters are no functions. -/
private theorem encloses_parameters {declared : List Parameter} {symbols : Symbols}
    (encloses : outer.Encloses inner)
    (declares : parameters inner.symbols declared = .ok symbols) :
    outer.Encloses { inner with symbols } := by
  induction declared generalizing inner with
  | nil =>
    cases declares
    exact encloses
  | cons parameter rest ih =>
    unfold parameters at declares
    split at declares
    case h_1 _ defines =>
      obtain ⟨-, rfl⟩ := define?_eq_some.1 defines
      have inside : outer.Encloses { inner with
          symbols := extended inner.symbols
            [(parameter.name, .parameter parameter.type parameter.default)] } :=
        encloses.extended (by simp [Definition.isFunction])
      have declared := ih inside declares
      exact declared
    case h_2 => cases declares

/-- In a bound statement every expression stands bound in its place. -/
theorem slots_of_statement {known known' : Statement} (encloses : outer.Encloses inner)
    (binds : statement inner known = .ok known') :
    List.Forall₂ (Slot.Keeps fun _ => Expr.BindsInside outer) known.slots known'.slots := by
  obtain ⟨symbols, declares, bound⟩ := bind_eq_ok.1 binds
  have entered := (encloses.enter (.statement known.name?)).inScope none
  have inside := encloses_parameters entered declares
  cases known with
  | query known =>
    simp only [query, bind_eq_ok, pure_eq_ok] at bound
    obtain ⟨_, ⟨selections, selected, condition, met, groupBy, grouped, limit, limited, rfl⟩, rfl⟩ :=
      bound
    have conditionBound : Bound outer ⟨.free, known.condition.map .bool⟩
        ⟨.free, condition.map .bool⟩ :=
      .of_rel (rel_of_option_mapM met fun _ _ => bool_bound inside)
    have keysBound : List.Forall₂ (Bound outer) (known.groupBy.map fun key => .given (.value key))
        (groupBy.map fun key => .given (.value key)) :=
      Slot.Keeps.map (forall₂_of_mapM grouped fun _ _ => value_bound inside)
    refine List.rel_append (List.rel_append
      (Slot.Keeps.map (forall₂_of_mapM selected fun _ _ binds => ?_))
      (.cons conditionBound keysBound)) (.cons (option_bound inside limited) .nil)
    simp only [bind_eq_ok, pure_eq_ok, Stopped.forget_eq_ok] at binds
    obtain ⟨expr, binds, rfl⟩ := binds
    exact ⟨_, inside, Expr.BindsIn.iff_bind.2 binds⟩
  | view known =>
    simp only [view, bind_eq_ok, pure_eq_ok] at bound
    obtain ⟨_, ⟨condition, met, rfl⟩, rfl⟩ := bound
    exact .cons (.given (bool_bound inside met)) .nil
  | funnel known =>
    simp only [funnel, bind_eq_ok, pure_eq_ok] at bound
    obtain ⟨_, ⟨paths, _, within, lasting, limit, limited, steps, stepped, rfl⟩, rfl⟩ := bound
    refine .cons ?_ (.cons (option_bound inside limited) (List.rel_flatMap
      (forall₂_of_mapM stepped fun _ _ => step_bound (inside.enter _)) fun _ _ => id))
    cases given : known.within with
    | none =>
      rw [given] at lasting
      obtain rfl := pure_eq_ok.1 (Stopped.forget_eq_ok.1 lasting)
      exact .filled rfl
    | some node =>
      rw [given] at lasting
      exact .given (value_bound inside lasting)
  | segment known =>
    simp only [segment, bind_eq_ok, pure_eq_ok] at bound
    obtain ⟨_, ⟨_, _, definitions, defined, rfl⟩, rfl⟩ := bound
    refine Slot.Keeps.map (forall₂_of_mapM defined fun _ _ binds => ?_)
    simp only [bind_eq_ok, pure_eq_ok] at binds
    obtain ⟨condition, met, rfl⟩ := binds
    exact bool_bound inside met

end Bind

/-! ### Compilation -/

theorem Slot.isFilling_iff {expr : Expr} : isFilling expr = true ↔
    (∃ span value, expr = .value (.constant span value)) ∨
      ∃ span name path, expr = .value (.path span name path) := by
  cases expr with
  | bool node => simp [isFilling]
  | value node => cases node <;> simp [isFilling]

/-- What becomes of an expression in its place. Unlike a free expression, a count or a duration is
folded as soon as it is bound. -/
def Role.Compiles [ZoneTable] (outer : Context) : Role → Expr → Expr → Prop
  | .free, expr, expr' => expr.CompilesInside outer expr'
  | .count, expr, expr' => ∃ node bound kept, expr = .value node ∧ expr' = .value kept ∧
    expr.BindsInside outer (.value bound) ∧ bound.FoldsToCount 0 kept
  | .duration, expr, expr' => ∃ node bound kept, expr = .value node ∧ expr' = .value kept ∧
    expr.BindsInside outer (.value bound) ∧ bound.FoldsToDuration kept

namespace Statement.Becomes.InSlot

variable {R : Expr → Expr → Prop} {L : ValueExpr → ValueExpr → Prop} {role : Role}
  {expr expr' : Expr}

/-- Constants and paths are rewritten to such. -/
private theorem isFilling (becomes : InSlot R L role expr expr')
    (simple : Slot.isFilling expr = true)
    (rewritten : ∀ {expr expr'}, R expr expr' → Slot.isFilling expr = true →
      Slot.isFilling expr' = true)
    (limited : ∀ {node node'}, L node node' → Slot.isFilling (.value node) = true →
      Slot.isFilling (.value node') = true) : Slot.isFilling expr' = true := by
  cases role with
  | free => exact rewritten becomes simple
  | count =>
    obtain ⟨node, node', rfl, rfl, related⟩ := becomes
    exact limited related simple
  | duration =>
    obtain ⟨node, node', rfl, rfl, folds⟩ := becomes
    obtain ⟨span, millis, rfl, -⟩ := folds.isDuration
    rfl

end Statement.Becomes.InSlot

private theorem Expr.ValidatesTo.isFilling [ZoneTable] {expr expr' : Expr}
    (validates : ValidatesTo expr expr')
    (simple : Slot.isFilling expr = true) : Slot.isFilling expr' = true := by
  rcases Slot.isFilling_iff.1 simple with ⟨span, value, rfl⟩ | ⟨span, name, path, rfl⟩ <;>
    cases validates with | value valid => cases valid; rfl

private theorem Optimized.isFilling {fold : Bool} {expr expr' : Expr}
    (optimized : Optimized fold expr expr') (simple : Slot.isFilling expr = true) :
    Slot.isFilling expr' = true := by
  rcases Slot.isFilling_iff.1 simple with ⟨span, value, rfl⟩ | ⟨span, name, path, rfl⟩ <;>
    cases optimized <;> rfl

namespace Role.Compiles

variable {outer : Context} {role : Role} {source bound valid expr' : Expr}

private theorem exists_value {node : ValueExpr} (binds : source.BindsInside outer (.value node)) :
    ∃ given, source = .value given := by
  obtain ⟨inner, -, binds⟩ := binds
  cases binds with
  | value _ => exact ⟨_, rfl⟩

/-- Optimization keeps the constants that validation has put in the places for them. -/
private theorem of_passes [ZoneTable] (binds : source.BindsInside outer bound)
    (validates : Statement.Becomes.InSlot Expr.ValidatesTo (ValueExpr.FoldsToCount 0) role
      bound valid)
    (optimizes : Statement.Becomes.InSlot (Optimized true) (fun node node' => node' = node) role
      valid expr') : Compiles outer role source expr' := by
  cases role with
  | free => exact ⟨bound, binds, valid, validates, optimizes⟩
  | count =>
    obtain ⟨node, kept, rfl, rfl, folds⟩ := validates
    obtain ⟨_, kept', ⟨⟩, rfl, same⟩ := optimizes
    obtain rfl : kept' = kept := same
    obtain ⟨given, rfl⟩ := exists_value binds
    exact ⟨given, node, kept', rfl, rfl, binds, folds⟩
  | duration =>
    obtain ⟨node, kept, rfl, rfl, folds⟩ := validates
    obtain ⟨_, kept', ⟨⟩, rfl, what, again⟩ := optimizes
    obtain rfl : kept = kept' :=
      Except.ok.inj ((Validate.foldDuration_of_isDuration folds.isDuration).symm.trans again)
    obtain ⟨given, rfl⟩ := exists_value binds
    exact ⟨given, node, kept, rfl, rfl, binds, folds⟩

end Role.Compiles

/-- A compiled statement has the places of its source, with what stands there compiled. -/
theorem Statement.CompilesIn.slots [ZoneTable] {outer inner : Context} {source compiled : Statement}
    (encloses : outer.Encloses inner) (compiles : CompilesIn inner true source compiled) :
    List.Forall₂ (Slot.Keeps (Role.Compiles outer)) source.slots compiled.slots := by
  obtain ⟨bound, binds, valid, validates, optimizes⟩ := compiles
  have eachBinds := Bind.slots_of_statement encloses binds
  have eachValidates := (Validate.becomes_statement validates).slots
  have eachOptimizes := (Optimize.becomes_statement optimizes).slots
  have each := forall₂_comp_iff.2
    ⟨_, eachBinds, forall₂_comp_iff.2 ⟨_, eachValidates, eachOptimizes⟩⟩
  refine each.imp fun slot slot' ⟨boundSlot, binds, validSlot, validates, optimizes⟩ => ?_
  have isCount {node node' : ValueExpr} (folds : node.FoldsToCount 0 node') :
      Slot.isFilling (.value node') = true := by
    obtain ⟨span, value, rfl, -⟩ := folds.isCount
    rfl
  have checked := binds.comp (T := fun role expr expr' => ∃ bound, expr.BindsInside outer bound ∧
      Becomes.InSlot Expr.ValidatesTo (ValueExpr.FoldsToCount 0) role bound expr') validates
    (fun binds valid => ⟨_, binds, valid⟩) fun valid simple =>
      valid.isFilling simple Expr.ValidatesTo.isFilling fun folds _ => isCount folds
  exact checked.comp optimizes
    (fun ⟨_, binds, valid⟩ optimized => .of_passes binds valid optimized)
    fun optimized simple => optimized.isFilling simple Optimized.isFilling fun same => same ▸ id

end EventQuery
