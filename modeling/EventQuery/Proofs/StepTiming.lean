import EventQuery.Calendar.Places
import EventQuery.Proofs.DeclaredPoints
import EventQuery.Proofs.KnownPasses
import Mathlib.Data.List.Induction

/-!
Steps without a timing. Binding fills in the ordinal field of the nearest relation that has one, at
or above the one where the condition of the step is evaluated. Validation keeps the points of
expressions, so it accepts what binding filled in.
-/
namespace EventQuery

open Outcome Axis

/-! ### Points of validated expressions -/

namespace SameNode

variable {R : Expr → Expr → Prop} {expr expr' : Expr}

theorem forall₂_children (same : SameNode R expr expr') (plain : expr.isPlain = true) :
    List.Forall₂ R expr.children expr'.children := by
  cases same
  case leaf childless =>
    rw [childless]
    exact .nil
  case connective first second => exact .cons first (.cons second .nil)
  case not only => exact .cons only .nil
  case comparison first second => exact .cons first (.cons second .nil)
  case bounds first second third => exact .cons first (.cons second (.cons third .nil))
  case nullTest only => exact .cons only .nil
  case inList first others =>
    exact .cons first (List.forall₂_map_left_iff.2 (List.forall₂_map_right_iff.2 others))
  case inVector first second => exact .cons first (.cons second .nil)
  case wrapper only => exact .cons only .nil
  case arithmetic first second => exact .cons first (.cons second .nil)
  case unary only => exact .cons only .nil
  case cast only => exact .cons only .nil
  case conversion only => exact .cons only .nil
  all_goals cases plain

theorem span_eq (same : SameNode R expr expr') : expr'.span = expr.span := by
  cases same <;> rfl

end SameNode

namespace Expr.ValidatesTo

variable {root : Path} {source expr : Expr}

/-- The relation between the points of a part before and after validation. -/
private abbrev Keeps (child child' : Expr) : Prop := Refines Eq child.point child'.point

private theorem keeps_of_isPlain (same : SameNode Keeps source expr)
    (plain : source.isPlain = true) : Keeps source expr := by
  have plain' : expr.isPlain = true := same.isPlain_eq.trans plain
  unfold Keeps
  rw [point_eq_combine (combines_of_isPlain plain), point_eq_combine (combines_of_isPlain plain'),
    same.span_eq]
  refine combine_keeps (List.forall₂_map_left_iff.2 (List.forall₂_map_right_iff.2 ?_))
  exact same.forall₂_children plain

private theorem keeps_call [ZoneTable] {span : Span} {name : String}
    {arguments arguments' : List ValueExpr} {binding binding' : Binding}
    (checked : Validate.checkCall span name arguments' binding = .ok binding')
    (all : List.Forall₂ (fun node node' => Keeps (.value node) (.value node')) arguments
      arguments') :
    Keeps (.value (.call span name arguments (some binding)))
      (.value (.call span name arguments' (some binding'))) := by
  show Refines Eq (callPoint span name binding (ValueExpr.points arguments))
    (callPoint span name binding' (ValueExpr.points arguments'))
  cases combined : combinesArguments binding.function with
  | true =>
    have combined' : combinesArguments binding'.function = true := by
      rw [Validate.checkCall_function checked, combined]
    rw [callPoint_eq_combine combined, callPoint_eq_combine combined', points_eq_map,
      points_eq_map]
    exact combine_keeps (List.forall₂_map_left_iff.2 (List.forall₂_map_right_iff.2 all))
  | false =>
    have apart : binding.function ≠ .formatDatetime := fun formats => by
      rw [formats] at combined
      cases combined
    rw [Validate.eq_of_checkCall checked apart, callPoint_eq_callPoint combined]
    exact .rfl fun _ => rfl

private theorem keeps_aggregation {span : Span} {op : AggregationOp}
    {count quanta count' quanta' : Option ValueExpr} {target target' : ValueExpr}
    {condition condition' : Option BoolExpr} {scope : Option String} {scopePath : Option Path}
    (counted : Validate.IsCount count') (only : Keeps (.value target) (.value target'))
    (met : Option.Rel (fun node node' => Keeps (.bool node) (.bool node')) condition condition')
    (lasting : Validate.IsCount quanta') :
    Keeps (.value (.aggregation span op count target condition scope quanta scopePath))
      (.value (.aggregation span op count' target' condition' scope quanta' scopePath)) := by
  have placeless {node : Option ValueExpr} (counts : Validate.IsCount node) :
      ∀ found, node = some found → ∃ point, found.point = .ok point := by
    intro found isSome
    obtain ⟨_, _, rfl, _⟩ := counts found isSome
    exact ⟨none, rfl⟩
  intro point found
  obtain ⟨path, rfl, aggregated, placed, accepted, meets, _, _, rfl⟩ :=
    ValueExpr.aggregation_point_eq_ok.1 found
  obtain ⟨_, placed', rfl⟩ := only aggregated placed
  refine ⟨_, ValueExpr.aggregation_point_eq_ok.2 ⟨path, rfl, aggregated, placed',
    checkTarget_eq_ok.2 (checkTarget_eq_ok.1 accepted), ?_, placeless counted, placeless lasting,
    rfl⟩, rfl⟩
  rintro node' rfl
  obtain ⟨node, rfl, keeps⟩ := exists_of_rel_some met
  obtain ⟨place, found, accepted⟩ := meets node rfl
  obtain ⟨_, found', rfl⟩ := keeps place found
  exact ⟨place, found', checkCondition_eq_ok.2 (checkCondition_eq_ok.1 accepted)⟩

/-- Validation keeps the evaluation point of an expression. -/
theorem point_refines [ZoneTable]
    (valid : ValidatesTo source expr) : Refines Eq source.point expr.point := by
  induction source using Expr.byChildren generalizing expr with
  | node source ih =>
    by_cases plain : source.isPlain = true
    · have same := (sameNode_iff plain).1 valid
      exact keeps_of_isPlain (same.imp fun child member child' valid => ih child member valid) plain
    cases valid with
    | @bool node node' valid =>
      cases node <;> first | exact absurd rfl plain | skip
      all_goals
        cases valid
        exact .rfl fun _ => rfl
    | @value node node' valid =>
      cases node <;> first | exact absurd rfl plain | skip
      case path | parameter =>
        cases valid
        exact .rfl fun _ => rfl
      case quantum span taken operand zone known =>
        have moved (operand' : ValueExpr) (found : Option TimeZone)
            (only : operand.validate = .ok operand') :
            Keeps (.value (.quantum span taken operand zone known))
              (.value (.quantum span taken operand' zone found)) :=
          combine_keeps (.cons (ih _ (List.mem_singleton_self _) (.value only)) .nil)
        rcases zone with _ | zone <;>
          simp only [ValueExpr.validate, bind_eq_ok, pure_eq_ok, Stopped.within_eq_ok] at valid
        · obtain ⟨operand', only, rfl⟩ := valid
          exact moved operand' known only
        · obtain ⟨operand', only, found, _, rfl⟩ := valid
          exact moved operand' (some found) only
      case call span name arguments binding =>
        rcases binding with _ | binding
        · cases valid
        by_cases validated : Validate.validatesArguments binding.function = true
        · obtain ⟨arguments', binding', all, checked, rfl⟩ :=
            (Validate.call_eq_ok validated).1 valid
          exact keeps_call checked (forall₂_imp_of_mem
            (fun node listed node' valid => ih _ (List.mem_map_of_mem listed) (.value valid)) all)
        · simp only [ValueExpr.validate, validated] at valid
          cases valid
          exact .rfl fun _ => rfl
      case aggregation =>
        obtain ⟨_, target', _, _, counted, -, only, met, lasting, rfl⟩ :=
          Validate.aggregation_eq_ok valid
        refine keeps_aggregation counted (ih _ ?_ (.value only))
          (rel_imp_of_mem (fun node found node' valid => ih _ ?_ (.bool valid)) met) lasting
        · simp [children, ValueExpr.children]
        · obtain rfl := Option.mem_def.1 found
          simp [children, ValueExpr.children]

end Expr.ValidatesTo

/-- The point that validation goes by is the one that binding went by. -/
theorem BoolExpr.eq_point_of_checked [ZoneTable] {condition valid : BoolExpr}
    {point place : Option Path}
    (found : condition.point = .ok point) (checked : condition.checked = .ok (valid, place)) :
    place = point := by
  simp only [BoolExpr.checked, bind_eq_ok, pure_eq_ok, Stopped.check_eq_ok] at checked
  obtain ⟨node, validates, _, _, place, placed, same⟩ := checked
  obtain ⟨rfl, rfl⟩ := Prod.mk.inj same
  obtain ⟨_, found', rfl⟩ := (Expr.ValidatesTo.bool validates).point_refines point found
  exact Except.ok.inj (placed.symm.trans found')

/-! ### The search -/

namespace Bind

variable {declaration : RelationDeclaration} {context : Context} {sources : List Path}
  {condition : BoolExpr} {point : Option Path} {span : Span} {outcome : Option Path}

theorem chain_concat (outer : List String) (name : String) :
    chain (.relation (outer ++ [name])) =
      .relation (outer ++ [name]) :: chain (.relation outer) := by
  simp only [chain, Path.owner, List.length_append, List.length_singleton,
    List.range_succ_eq_map, List.map_cons, List.map_map, Nat.sub_zero]
  rw [List.take_of_length_le (by simp)]
  refine congrArg _ (List.map_congr_left fun place _ => ?_)
  simp only [Function.comp_apply, Nat.succ_eq_add_one, Nat.add_sub_add_right]
  rw [List.take_append_of_le_length (Nat.sub_le _ _)]

/-- The list of the relations on the way up is searched like the way itself. -/
theorem climbs_chain {schema : Schema} (built : Schema.ofDeclaration declaration = .ok schema)
    (path : Path) : schema.Climbs path.home ((chain path).findSome? schema.ordinalOf?) := by
  have aboveRoot : schema.ordinalOf? (.relation []) = none := by
    refine Option.eq_none_iff_forall_not_mem.2 fun ordinal found => ?_
    have outside : (Path.relation []).IsDotless := List.forall_mem_nil _
    obtain ⟨isOrdinal, same⟩ :=
      (Schema.ordinalOf?_eq_some_of_isDotless built outside).1 found
    exact isOrdinal.owner_ne_nil built same
  suffices every : ∀ segments, schema.Climbs (.relation segments)
      ((chain (.relation segments)).findSome? schema.ordinalOf?) from every path.owner
  intro segments
  induction segments using List.reverseRecOn with
  | nil => exact .out aboveRoot rfl
  | append_singleton outer name ih =>
    rw [chain_concat, List.findSome?_cons]
    cases timed : schema.ordinalOf? (.relation (outer ++ [name])) with
    | some ordinal => exact .found timed
    | none =>
      cases outer with
      | nil => exact .out timed rfl
      | cons first rest =>
        refine .up timed ?_ ih
        rw [Path.parent?, if_pos (by simp), List.dropLast_concat]

/-- Where the search of a timing starts: at the point of the condition, or for a constant condition
at the first source, or at the root. -/
def timingStart (context : Context) (sources : List Path) (point : Option Path) : Path :=
  point.getD (sources.headD context.schema.root)

/-- Binding takes the sources from the schema, so the search starts at a declared path. -/
theorem timingStart_mem {source : BoolExpr} {frame : Frame} {names : List String}
    (built : Schema.ofDeclaration declaration = .ok context.schema)
    (resolves : Bind.sources context names span = .ok sources)
    (binds : source.bind (context.enter frame) = .ok condition)
    (found : condition.point = .ok point) :
    timingStart context sources point ∈ context.schema.paths := by
  cases point with
  | some place =>
    have built : Schema.ofDeclaration declaration = .ok (context.enter frame).schema := built
    exact Expr.point_mem_of_bind built (.bool binds) found
  | none =>
    cases sources with
    | nil => exact Schema.root_mem built
    | cons first rest =>
      obtain ⟨_, -, named⟩ := exists_of_mem_right (mapM_eq_ok.1 resolves) List.mem_cons_self
      exact mem_of_relation named

/-- The timing that binding fills in. -/
def inferred (ordinal : Path) : ValueExpr := .path .none ordinal.dotted (some ordinal)

theorem timing_eq_ok {ordinal : Path} (found : condition.point = .ok point)
    (searched : (chain (timingStart context sources point)).findSome? context.schema.ordinalOf? =
      some ordinal) :
    timing context condition sources span = .ok (inferred ordinal) := by
  unfold timing
  rw [found]
  cases point <;> simp only [timingStart, Option.getD_none, Option.getD_some] at searched <;>
    simp only [bind, Except.bind, searched] <;> rfl

theorem timing_eq_error (found : condition.point = .ok point)
    (searched : (chain (timingStart context sources point)).findSome? context.schema.ordinalOf? =
      none) :
    ∃ cause, timing context condition sources span = .error cause ∧
      cause.kind = .scopeAxisError := by
  unfold timing
  rw [found]
  cases point <;> simp only [timingStart, Option.getD_none, Option.getD_some] at searched <;>
    simp only [bind, Except.bind, searched] <;> exact ⟨_, rfl, rfl⟩

end Bind

/-- The trigger with an ordinal field for its timing, and with bound durations, of which those that
were left out are zero. -/
def Trigger.timedBy (trigger : Trigger) (ordinal : Path) (within after : Option ValueExpr) :
    Trigger :=
  { trigger with
    timing := some (Bind.inferred ordinal), within := some (within.getD Bind.zero),
    after := some (after.getD Bind.zero) }

namespace Bind

variable {context : Context} {sources : List Path} {condition : BoolExpr} {span : Span}
  {trigger : Trigger} {within after : Option ValueExpr}

theorem trigger_untimed_eq_ok {ordinal : Path} (untimed : trigger.timing = none)
    (lasts : option context trigger.within = .ok within)
    (waits : option context trigger.after = .ok after)
    (timed : timing context condition sources span = .ok (inferred ordinal)) :
    Bind.trigger context trigger condition sources span =
      .ok (trigger.timedBy ordinal within after) := by
  simp only [Bind.trigger, untimed, lasts, waits, timed]
  rfl

theorem trigger_untimed_eq_error {cause : Diagnostic} (untimed : trigger.timing = none)
    (lasts : option context trigger.within = .ok within)
    (waits : option context trigger.after = .ok after)
    (fails : timing context condition sources span = .error cause) :
    Bind.trigger context trigger condition sources span = .error cause := by
  simp only [Bind.trigger, untimed, lasts, waits, fails]
  rfl

end Bind

/-! ### The checks -/

namespace Validate

variable {ordinal : Path} {place : Option Path}

theorem checked_inferred [ZoneTable] (isOrdinal : ordinal.isOrdinal = true)
    (sound : ordinal.IsSoundOrdinal) :
    (Bind.inferred ordinal).checked = .ok (Bind.inferred ordinal, some ordinal.home) := by
  obtain ⟨owner, name, type, rfl, _⟩ := sound isOrdinal
  rfl

/-- An ordinal field passes for the timing of a condition that is evaluated at its relation, or
below, or nowhere. -/
theorem checkTiming_inferred (isOrdinal : ordinal.isOrdinal = true)
    (sound : ordinal.IsSoundOrdinal)
    (above : ∀ path, place = some path → ordinal.isAncestorOf path = true) :
    checkTiming (Bind.inferred ordinal) (some ordinal.home) place = .ok () := by
  obtain ⟨owner, name, type, rfl, timeType⟩ := sound isOrdinal
  have typed : (Bind.inferred (.field owner name ⟨type, false, true⟩)).type = .ok type := rfl
  have fit : (type = .datetime || type.isIntegral) = true := by
    rcases timeType with rfl | rfl <;> rfl
  simp only [checkTiming, typed, bind, Except.bind, fit, Bool.not_true]
  cases place with
  | none => rfl
  | some path =>
    have onPath : (Path.field owner name ⟨type, false, true⟩).home.areOffPath path = false :=
      Path.areOffPath_eq_false.2 (.inl (above path rfl))
    simp only [onPath]
    rfl

/-- What is left of the checks of such a trigger are the durations. -/
theorem trigger_timedBy [ZoneTable] {trigger : Trigger} {within after : Option ValueExpr}
    (isOrdinal : ordinal.isOrdinal = true) (sound : ordinal.IsSoundOrdinal)
    (above : ∀ path, place = some path → ordinal.isAncestorOf path = true) :
    Validate.trigger place (trigger.timedBy ordinal within after) = do
      let within ← duration (some (within.getD Bind.zero)) "WITHIN"
      let after ← duration (some (after.getD Bind.zero)) "AFTER"
      return { trigger with timing := some (Bind.inferred ordinal), within, after } := by
  simp only [Validate.trigger, Trigger.timedBy, Option.mapM_some, checked_inferred isOrdinal sound,
    Stopped.forget, Except.mapError, checkTiming_inferred isOrdinal sound above, bind, Except.bind]
  rfl

end Validate

/-! ### Steps -/

namespace Bind

theorem step_eq {context : Context} (sources : List Path) {step : Step} {trigger : Trigger}
    {condition : BoolExpr} (triggered : step.trigger = some trigger)
    (binds : step.condition.bind (context.enter (.step step.id)) = .ok condition) :
    Bind.step context sources step =
      (fun trigger => { step with condition, trigger := some trigger }) <$>
        Bind.trigger (context.enter (.step step.id)) trigger condition sources
          (condition.span.cover step.span) := by
  simp only [Bind.step, triggered, binds, Stopped.forget, Except.mapError, bind, Except.bind,
    Option.mapM_some]
  cases Bind.trigger (context.enter (.step step.id)) trigger condition sources
    (condition.span.cover step.span) <;> rfl

/-- A step without a timing, in a funnel over some sources, whose condition has an evaluation
point. Binding fills in the nearest ordinal field at or above this point, to which the climb
leads, and validation has nothing against it: what is left of the checks of the trigger are the
durations. If the climb ends without an ordinal field, there is none above, and binding fails. -/
theorem step_of_untimed [ZoneTable] {declaration : RelationDeclaration} {context : Context}
    {names : List String} {span : Span} {sources : List Path} {step : Step} {trigger : Trigger}
    {condition : BoolExpr} {point : Option Path} {within after : Option ValueExpr}
    (built : Schema.ofDeclaration declaration = .ok context.schema)
    (resolves : Bind.sources context names span = .ok sources)
    (triggered : step.trigger = some trigger) (untimed : trigger.timing = none)
    (binds : step.condition.bind (context.enter (.step step.id)) = .ok condition)
    (found : condition.point = .ok point)
    (lasts : option (context.enter (.step step.id)) trigger.within = .ok within)
    (waits : option (context.enter (.step step.id)) trigger.after = .ok after) :
    ∃ outcome, context.schema.Climbs (timingStart context sources point).home outcome ∧
      (∀ ordinal, outcome = some ordinal ↔
        context.schema.IsNearestOrdinal (timingStart context sources point) ordinal) ∧
      match outcome with
      | some ordinal =>
        Bind.step context sources step =
            .ok { step with condition, trigger := some (trigger.timedBy ordinal within after) } ∧
          ∀ valid place, condition.checked = .ok (valid, place) →
            Validate.trigger place (trigger.timedBy ordinal within after) = do
              let within ← Validate.duration (some (within.getD zero)) "WITHIN"
              let after ← Validate.duration (some (after.getD zero)) "AFTER"
              return { trigger with timing := some (inferred ordinal), within, after }
      | none =>
        (∀ ordinal, context.schema.IsOrdinal ordinal →
          ordinal.isAncestorOf (timingStart context sources point) = false) ∧
        ∃ cause, Bind.step context sources step = .error cause ∧
          cause.kind = .scopeAxisError := by
  have climbs := climbs_chain built (timingStart context sources point)
  have dotless := Schema.isDotless_of_mem built (timingStart_mem built resolves binds found)
  refine ⟨_, climbs, fun ordinal => climbs.eq_some_iff built dotless, ?_⟩
  rw [step_eq sources triggered binds]
  cases searched : (chain (timingStart context sources point)).findSome?
      context.schema.ordinalOf? with
  | some ordinal =>
    obtain ⟨isOrdinal, above, _⟩ := (climbs.eq_some_iff built dotless).1 searched
    have sound := (Schema.contributed built).sound ordinal isOrdinal.1
    refine ⟨?_, fun valid place checked => ?_⟩
    · rw [trigger_untimed_eq_ok untimed lasts waits (timing_eq_ok found searched)]
      rfl
    · obtain rfl : place = point := BoolExpr.eq_point_of_checked found checked
      refine Validate.trigger_timedBy isOrdinal.2 sound fun path isPath => ?_
      subst isPath
      exact above
  | none =>
    obtain ⟨cause, fails, kind⟩ := timing_eq_error found searched
    refine ⟨(climbs.eq_none_iff built dotless).1 searched, cause, ?_, kind⟩
    rw [trigger_untimed_eq_error untimed lasts waits fails]
    rfl

end Bind

/-! ### Events between two times -/

private def timedVisits : RelationDeclaration :=
  .mk "user" [⟨"created", .datetime, false, true⟩]
    [.mk "sessions" [⟨"start", .long, false, true⟩]
      [.mk "events" [⟨"name", .string, false, false⟩] []]]

private def visitsFrom : Context :=
  .start ⟨.relation ["user"],
    [.relation ["user"], .field ["user"] "created" ⟨.datetime, false, true⟩,
      .relation ["user", "sessions"], .field ["user", "sessions"] "start" ⟨.long, false, true⟩,
      .relation ["user", "sessions", "events"],
      .field ["user", "sessions", "events"] "name" ⟨.string, false, false⟩]⟩ ⟨.utc, true⟩ .builtin

private def nameIsNull (bound : Bool) : BoolExpr :=
  .nullTest .none .isNull (.path .none "user.sessions.events.name"
    (if bound then some (.field ["user", "sessions", "events"] "name" ⟨.string, false, false⟩)
      else none))

private def whenever : Trigger := ⟨.none, none, none, none⟩

private def nameless : Step := ⟨.none, 1, nameIsNull false, some whenever⟩

/-- Events have no time of their own, so the start of their session counts. -/
theorem step_of_untimed_nameless :
    Schema.ofDeclaration timedVisits = .ok visitsFrom.schema ∧
      nameless.condition.bind (visitsFrom.enter (.step 1)) = .ok (nameIsNull true) ∧
      (nameIsNull true).point = .ok (some (.relation ["user", "sessions", "events"])) ∧
      ∃ ordinal,
        visitsFrom.schema.IsNearestOrdinal (.relation ["user", "sessions", "events"]) ordinal ∧
          Bind.step visitsFrom [.relation ["user"]] nameless =
            .ok { nameless with
              condition := nameIsNull true,
              trigger := some (whenever.timedBy ordinal none none) } := by
  have built : Schema.ofDeclaration timedVisits = .ok visitsFrom.schema := rfl
  have binds : nameless.condition.bind (visitsFrom.enter (.step 1)) = .ok (nameIsNull true) := rfl
  have found : (nameIsNull true).point = .ok (some (.relation ["user", "sessions", "events"])) :=
    rfl
  have resolves : Bind.sources visitsFrom ["user"] .none = .ok [.relation ["user"]] := by
    decide +kernel
  obtain ⟨outcome, _, nearest, ends⟩ := @Bind.step_of_untimed Places.table timedVisits visitsFrom
    ["user"] .none _ nameless whenever (nameIsNull true) _ none none built resolves rfl rfl binds
    found rfl rfl
  cases outcome with
  | none =>
    have above := ends.1 (.field ["user"] "created" ⟨.datetime, false, true⟩) ⟨by decide, rfl⟩
    cases above
  | some ordinal => exact ⟨built, binds, found, ordinal, (nearest ordinal).1 rfl, ends.1⟩

end EventQuery
