import EventQuery.Proofs.BoundTrees
import EventQuery.Statement.Bind
import EventQuery.Statement.Optimize

/-!
The expressions of a statement in their places. Binding leaves every expression bound where
it stands; validation and optimization keep the places, rewrite what stands there, and put
constants where the durations and the limits were.
-/
namespace EventQuery

open Outcome

/-! ### Places -/

/-- The parts that a trigger has. -/
def Trigger.given (trigger : Trigger) : List ValueExpr := trigger.parts.filterMap id

/-- The expressions of a step: its condition and what its trigger has. -/
def Step.expressions (step : Step) : List Expr :=
  .bool step.condition ::
    match step.trigger with
    | some trigger => trigger.given.map .value
    | none => []

namespace Statement

/-- The expressions of a statement in the order in which they are bound, each with the frames
around it, innermost first. -/
def placed : Statement → List (List Frame × Expr)
  | .funnel known =>
    let outside := [Frame.statement (some known.name)]
    let inside := Frame.funnel known.stepIds known.sourcePaths :: outside
    (known.within.toList ++ known.limit.toList).map (fun node => (outside, .value node))
      ++ known.steps.flatMap fun step =>
        step.expressions.map fun expr => (.step step.id :: inside, expr)
  | statement =>
    (Bind.expressions statement).map fun expr => ([.statement statement.name?], expr)

/-- Every expression of a statement has its place. -/
theorem map_placed (statement : Statement) :
    statement.placed.map Prod.snd = Bind.expressions statement := by
  cases statement with
  | funnel known =>
    simp only [placed, Bind.expressions, List.map_append, List.map_map, List.map_flatMap,
      Function.comp_def, List.map_id']
    congr
  | _ => simp [placed, Function.comp_def]

/-- The property holds of every expression of the statement in its place. -/
def Each (P : List Frame → Expr → Prop) (statement : Statement) : Prop :=
  ∀ place ∈ statement.placed, P place.1 place.2

theorem forall_expressions {P : Expr → Prop} {statement : Statement} :
    (∀ expr ∈ Bind.expressions statement, P expr) ↔ statement.Each fun _ => P := by
  rw [← map_placed, List.forall_mem_map]
  rfl

theorem Each.of_mem_expressions {P : Expr → Prop} {statement : Statement}
    (each : statement.Each fun _ => P) : ∀ expr ∈ Bind.expressions statement, P expr :=
  forall_expressions.2 each

variable {P : List Frame → Expr → Prop}

theorem each_query {known : Query} :
    (Statement.query known).Each P ↔
      (∀ selection ∈ known.selections, P [.statement known.name] selection.expr) ∧
      (∀ node, known.condition = some node → P [.statement known.name] (.bool node)) ∧
      (∀ node ∈ known.groupBy, P [.statement known.name] (.value node)) ∧
      ∀ node, known.limit = some node → P [.statement known.name] (.value node) := by
  simp [Each, placed, Bind.expressions, name?, or_imp, forall_and]

theorem each_view {known : View} :
    (Statement.view known).Each P ↔ P [.statement (some known.name)] (.bool known.condition) := by
  simp [Each, placed, Bind.expressions, name?]

theorem each_segment {known : Segment} :
    (Statement.segment known).Each P ↔
      ∀ definition ∈ known.definitions,
        P [.statement (some known.name)] (.bool definition.condition) := by
  simp [Each, placed, Bind.expressions, name?]

theorem each_funnel {known : Funnel} :
    (Statement.funnel known).Each P ↔
      (∀ node, known.within = some node → P [.statement (some known.name)] (.value node)) ∧
      (∀ node, known.limit = some node → P [.statement (some known.name)] (.value node)) ∧
      ∀ step ∈ known.steps, ∀ expr ∈ step.expressions,
        P [.step step.id, .funnel known.stepIds known.sourcePaths, .statement (some known.name)]
          expr := by
  simp only [Each, placed, List.forall_mem_append, List.forall_mem_map, List.forall_mem_flatMap,
    Option.mem_toList, and_assoc]

end Statement

theorem Trigger.forall_given {P : ValueExpr → Prop} {trigger : Trigger} :
    (∀ node ∈ trigger.given, P node) ↔
      (∀ node, trigger.timing = some node → P node) ∧
      (∀ node, trigger.within = some node → P node) ∧
      ∀ node, trigger.after = some node → P node := by
  simp [given, parts, or_imp, forall_and, eq_comm]

theorem Step.forall_expressions {P : Expr → Prop} {step : Step} :
    (∀ expr ∈ step.expressions, P expr) ↔
      P (.bool step.condition) ∧
        ∀ trigger, step.trigger = some trigger → ∀ node ∈ trigger.given, P (.value node) := by
  unfold expressions
  cases step.trigger <;> simp

/-! ### Timings and durations -/

/-- The trigger has a timing, and durations as `D` says. -/
structure Trigger.Timed (D : ValueExpr → Prop) (trigger : Trigger) : Prop where
  timing : ∃ node, trigger.timing = some node
  within : ∃ node, trigger.within = some node ∧ D node
  after : ∃ node, trigger.after = some node ∧ D node

/-- A funnel has a duration as `D` says, and so have its triggers. -/
def Statement.Timed (D : ValueExpr → Prop) : Statement → Prop
  | .funnel known =>
    (∃ node, known.within = some node ∧ D node) ∧
      ∀ step ∈ known.steps, ∀ trigger, step.trigger = some trigger → trigger.Timed D
  | _ => True

/-- What the statement limits its result to. -/
def Statement.limit? : Statement → Option ValueExpr
  | .query known => known.limit
  | .funnel known => known.limit
  | _ => none

/-! ### Validation and optimization -/

section Becomes

-- `R` relates expressions that are rewritten, and `L` the limits
variable (R : Expr → Expr → Prop) (L : ValueExpr → ValueExpr → Prop)

/-- The second trigger is the first one with its timing rewritten and its durations folded. -/
structure Trigger.Becomes (trigger trigger' : Trigger) : Prop where
  timing : Option.Rel (fun node node' => R (.value node) (.value node'))
    trigger.timing trigger'.timing
  within : Option.Rel ValueExpr.FoldsToDuration trigger.within trigger'.within
  after : Option.Rel ValueExpr.FoldsToDuration trigger.after trigger'.after

structure Step.Becomes (step step' : Step) : Prop where
  id : step'.id = step.id
  condition : R (.bool step.condition) (.bool step'.condition)
  trigger : Option.Rel (Trigger.Becomes R) step.trigger step'.trigger

/-- The second statement is the first one with its expressions rewritten where they stand. -/
inductive Statement.Becomes : Statement → Statement → Prop where
  | query {known known'} (name : known'.name = known.name)
      (selections : List.Forall₂ (fun selection selection' => R selection.expr selection'.expr)
        known.selections known'.selections)
      (condition : Option.Rel (fun node node' => R (.bool node) (.bool node'))
        known.condition known'.condition)
      (groupBy : List.Forall₂ (fun node node' => R (.value node) (.value node'))
        known.groupBy known'.groupBy)
      (limit : Option.Rel L known.limit known'.limit) :
      Becomes (.query known) (.query known')
  | view {known known'} (name : known'.name = known.name)
      (condition : R (.bool known.condition) (.bool known'.condition)) :
      Becomes (.view known) (.view known')
  | funnel {known known'} (name : known'.name = known.name)
      (sourcePaths : known'.sourcePaths = known.sourcePaths)
      (steps : List.Forall₂ (Step.Becomes R) known.steps known'.steps)
      (within : Option.Rel ValueExpr.FoldsToDuration known.within known'.within)
      (limit : Option.Rel L known.limit known'.limit) :
      Becomes (.funnel known) (.funnel known')
  | segment {known known'} (name : known'.name = known.name)
      (definitions : List.Forall₂
        (fun definition definition' => R (.bool definition.condition) (.bool definition'.condition))
        known.definitions known'.definitions) :
      Becomes (.segment known) (.segment known')

end Becomes

namespace Statement.Becomes

variable {R : Expr → Expr → Prop} {L : ValueExpr → ValueExpr → Prop}
  {P Q : List Frame → Expr → Prop} {statement statement' : Statement}

private theorem isLiteral_of_rel {part part' : Option ValueExpr} {node : ValueExpr}
    (related : Option.Rel ValueExpr.FoldsToDuration part part')
    (found : part' = some node) : (Expr.value node).isLiteral = true := by
  subst found
  obtain ⟨_, _, folds⟩ := exists_of_rel_some related
  obtain ⟨span, millis, rfl, -⟩ := folds.isDuration
  rfl

private theorem each_step {P Q : Expr → Prop} {step step' : Step}
    (becomes : Step.Becomes R step step')
    (holds : ∀ expr ∈ step.expressions, P expr) (literal : ∀ expr, expr.isLiteral = true → Q expr)
    (rewritten : ∀ expr expr', P expr → R expr expr' → Q expr') :
    ∀ expr ∈ step'.expressions, Q expr := by
  rw [Step.forall_expressions] at holds ⊢
  obtain ⟨met, triggered⟩ := holds
  refine ⟨rewritten _ _ met becomes.condition, fun trigger' isTrigger => ?_⟩
  have related := becomes.trigger
  rw [isTrigger] at related
  obtain ⟨trigger, known, same⟩ := exists_of_rel_some related
  have timed := (Trigger.forall_given.1 (triggered trigger known)).1
  refine Trigger.forall_given.2 ⟨fun node found => ?_,
    fun node found => literal _ (isLiteral_of_rel same.within found),
    fun node found => literal _ (isLiteral_of_rel same.after found)⟩
  have related := same.timing
  rw [found] at related
  obtain ⟨source, isSource, related⟩ := exists_of_rel_some related
  exact rewritten _ _ (timed source isSource) related

/-- What holds of every expression in its place leads to something that holds of every
expression of the rewritten statement. -/
theorem each (becomes : Becomes R L statement statement') (holds : statement.Each P)
    (literal : ∀ frames expr, expr.isLiteral = true → Q frames expr)
    (rewritten : ∀ frames expr expr', P frames expr → R expr expr' → Q frames expr')
    (limited : ∀ frames node node', P frames (.value node) → L node node' →
      Q frames (.value node')) :
    statement'.Each Q := by
  cases becomes with
  | query name selections condition groupBy limit =>
    obtain ⟨selected, met, grouped, bounded⟩ := each_query.1 holds
    rw [each_query, name]
    refine ⟨fun selection' listed => ?_, ?_, fun node' listed => ?_, ?_⟩
    · obtain ⟨selection, listed, related⟩ := exists_of_mem_right selections listed
      exact rewritten _ _ _ (selected selection listed) related
    · rintro node' found
      rw [found] at condition
      obtain ⟨node, isNode, related⟩ := exists_of_rel_some condition
      exact rewritten _ _ _ (met node isNode) related
    · obtain ⟨node, listed, related⟩ := exists_of_mem_right groupBy listed
      exact rewritten _ _ _ (grouped node listed) related
    · rintro node' found
      rw [found] at limit
      obtain ⟨node, isNode, related⟩ := exists_of_rel_some limit
      exact limited _ _ _ (bounded node isNode) related
  | view name condition =>
    rw [each_view, name]
    exact rewritten _ _ _ (each_view.1 holds) condition
  | @funnel known known' name sourcePaths steps within limit =>
    obtain ⟨_, bounded, stepped⟩ := each_funnel.1 holds
    rw [each_funnel, name, sourcePaths, Funnel.stepIds,
      map_eq_of_forall₂ (steps.imp fun _ _ becomes => becomes.id)]
    refine ⟨fun node found => literal _ _ (isLiteral_of_rel within found), ?_, ?_⟩
    · rintro node' found
      rw [found] at limit
      obtain ⟨node, isNode, related⟩ := exists_of_rel_some limit
      exact limited _ _ _ (bounded node isNode) related
    · intro step' listed
      obtain ⟨step, listed, becomes⟩ := exists_of_mem_right steps listed
      rw [becomes.id]
      exact each_step becomes (stepped step listed) (literal _) (rewritten _)
  | segment name definitions =>
    rw [each_segment, name]
    intro definition' listed
    obtain ⟨definition, listed, related⟩ := exists_of_mem_right definitions listed
    exact rewritten _ _ _ (each_segment.1 holds definition listed) related

end Statement.Becomes

theorem BoolExpr.validate_of_checked [ZoneTable] {node node' : BoolExpr} {point : Option Path}
    (valid : node.checked = .ok (node', point)) : node.validate = .ok node' := by
  simp only [checked, bind_eq_ok, pure_eq_ok, Prod.mk.injEq] at valid
  obtain ⟨_, validates, _, _, _, _, rfl, _⟩ := valid
  exact validates

theorem ValueExpr.validate_of_checked [ZoneTable] {node node' : ValueExpr} {point : Option Path}
    (valid : node.checked = .ok (node', point)) : node.validate = .ok node' := by
  simp only [checked, bind_eq_ok, pure_eq_ok, Prod.mk.injEq] at valid
  obtain ⟨_, validates, _, _, _, _, rfl, _⟩ := valid
  exact validates

namespace Validate

theorem folds_of_duration {node node' : Option ValueExpr} {what : String}
    (folds : duration node what = .ok node') :
    Option.Rel ValueExpr.FoldsToDuration node node' :=
  rel_of_option_mapM folds fun _ _ folds => ⟨what, Stopped.forget_eq_ok.1 folds⟩

theorem folds_of_limit {node node' : Option ValueExpr} (folds : limit node = .ok node') :
    Option.Rel (ValueExpr.FoldsToCount 0) node node' := by
  refine rel_of_option_mapM folds fun node node' folds => ?_
  simp only [bind_eq_ok, pure_eq_ok, Stopped.forget_eq_ok] at folds
  obtain ⟨⟨folded, count⟩, folds, rfl⟩ := folds
  exact ⟨_, count, folds⟩

private theorem becomes_trigger [ZoneTable] {point : Option Path} {trigger trigger' : Trigger}
    (valid : Validate.trigger point trigger = .ok trigger') :
    Trigger.Becomes Expr.ValidatesTo trigger trigger' := by
  simp only [Validate.trigger, bind_eq_ok, pure_eq_ok] at valid
  obtain ⟨timing, timed, within, lasting, after, waiting, rfl⟩ := valid
  refine ⟨rel_of_option_mapM timed fun node node' timed => ?_, folds_of_duration lasting,
    folds_of_duration waiting⟩
  simp only [bind_eq_ok, pure_eq_ok, Stopped.forget_eq_ok] at timed
  obtain ⟨⟨node, point⟩, valid, _, _, rfl⟩ := timed
  exact .value (ValueExpr.validate_of_checked valid)

private theorem becomes_step [ZoneTable] {sources : List Path} {step step' : Step}
    (valid : Validate.step sources step = .ok step') :
    Step.Becomes Expr.ValidatesTo step step' := by
  simp only [Validate.step, bind_eq_ok, pure_eq_ok, Stopped.forget_eq_ok] at valid
  obtain ⟨⟨condition, point⟩, met, _, _, trigger, triggered, rfl⟩ := valid
  exact ⟨rfl, .bool (BoolExpr.validate_of_checked met),
    rel_of_option_mapM triggered fun _ _ => becomes_trigger⟩

private theorem becomes_definitions [ZoneTable] {sources : List Path} {seen : List String}
    {known known' : List SegmentDefinition}
    (valid : Validate.definitions sources seen known = .ok known') :
    List.Forall₂ (fun definition definition' =>
      Expr.ValidatesTo (.bool definition.condition) (.bool definition'.condition)) known known' := by
  induction known generalizing seen known' with
  | nil =>
    cases valid
    exact .nil
  | cons definition rest ih =>
    simp only [Validate.definitions] at valid
    split at valid
    case isTrue => cases valid
    case isFalse =>
      split at valid
      case isTrue => cases valid
      case isFalse =>
        simp only [bind_eq_ok, pure_eq_ok, Stopped.forget_eq_ok] at valid
        obtain ⟨⟨condition, point⟩, met, _, _, rest', others, rfl⟩ := valid
        exact .cons (.bool (BoolExpr.validate_of_checked met)) (ih others)

/-- Validation of a statement rewrites its expressions where they stand and folds its limit. -/
theorem becomes_statement [ZoneTable] {statement statement' : Statement}
    (valid : Validate.statement statement = .ok statement') :
    statement.Becomes Expr.ValidatesTo (ValueExpr.FoldsToCount 0) statement' := by
  obtain ⟨_, _, valid⟩ := bind_eq_ok.1 valid
  cases statement with
  | query known =>
    simp only [Validate.query, bind_eq_ok, pure_eq_ok] at valid
    obtain ⟨_, ⟨selections, selected, condition, met, groupBy, grouped, limit, limited, rfl⟩, rfl⟩ :=
      valid
    refine .query rfl (forall₂_of_mapM selected fun _ _ valid => ?_)
      (rel_of_option_mapM met fun _ _ valid => ?_) (forall₂_of_mapM grouped fun _ _ valid => ?_)
      (folds_of_limit limited)
    all_goals
      simp only [bind_eq_ok, pure_eq_ok, Stopped.forget_eq_ok] at valid
      obtain ⟨⟨_, _⟩, valid, rfl⟩ := valid
    · exact (Expr.validate_eq_ok valid).1
    · exact .bool (BoolExpr.validate_of_checked valid)
    · exact .value (ValueExpr.validate_of_checked valid)
  | view known =>
    simp only [Validate.view, bind_eq_ok, pure_eq_ok, Stopped.forget_eq_ok] at valid
    obtain ⟨_, ⟨⟨condition, point⟩, met, rfl⟩, rfl⟩ := valid
    exact .view rfl (.bool (BoolExpr.validate_of_checked met))
  | funnel known =>
    simp only [Validate.funnel, bind_eq_ok, pure_eq_ok, Stopped.forget_eq_ok] at valid
    obtain ⟨_, ⟨steps, stepped, within, lasting, limit, limited, _, _, rfl⟩, rfl⟩ := valid
    exact .funnel rfl rfl (forall₂_of_mapM stepped fun _ _ => becomes_step)
      (folds_of_duration lasting) (folds_of_limit limited)
  | segment known =>
    simp only [Validate.segment, bind_eq_ok, pure_eq_ok] at valid
    obtain ⟨_, ⟨definitions, defined, rfl⟩, rfl⟩ := valid
    exact .segment rfl (becomes_definitions defined)

end Validate

namespace Optimize

variable {fold : Bool}

private theorem becomes_trigger {trigger trigger' : Trigger}
    (optimized : Optimize.trigger fold trigger = .ok trigger') :
    Trigger.Becomes (Optimized fold) trigger trigger' := by
  simp only [Optimize.trigger, bind_eq_ok, pure_eq_ok] at optimized
  obtain ⟨timing, timed, within, lasting, after, waiting, rfl⟩ := optimized
  exact ⟨rel_of_option_mapM timed fun _ _ => Optimized.value_iff.2,
    Validate.folds_of_duration lasting, Validate.folds_of_duration waiting⟩

private theorem becomes_step {step step' : Step}
    (optimized : Optimize.step fold step = .ok step') :
    Step.Becomes (Optimized fold) step step' := by
  simp only [Optimize.step, bind_eq_ok, pure_eq_ok] at optimized
  obtain ⟨condition, met, trigger, triggered, rfl⟩ := optimized
  exact ⟨rfl, Optimized.bool_iff.2 met, rel_of_option_mapM triggered fun _ _ => becomes_trigger⟩

/-- Optimization of a statement rewrites its expressions where they stand and keeps its limit. -/
theorem becomes_statement {statement statement' : Statement}
    (optimized : Optimize.statement fold statement = .ok statement') :
    statement.Becomes (Optimized fold) (fun node node' => node' = node) statement' := by
  have kept (limit : Option ValueExpr) :
      Option.Rel (fun node node' => node' = node) limit limit := by
    cases limit
    · exact .none
    · exact .some rfl
  cases statement with
  | query known =>
    simp only [Optimize.statement, Optimize.query, bind_eq_ok, pure_eq_ok] at optimized
    obtain ⟨_, ⟨selections, selected, condition, met, groupBy, grouped, rfl⟩, rfl⟩ := optimized
    refine .query rfl (forall₂_of_mapM selected fun _ _ optimized => ?_)
      (rel_of_option_mapM met fun _ _ => Optimized.bool_iff.2)
      (forall₂_of_mapM grouped fun _ _ => Optimized.value_iff.2) (kept _)
    simp only [bind_eq_ok, pure_eq_ok] at optimized
    obtain ⟨expr, optimized, rfl⟩ := optimized
    exact optimized
  | view known =>
    simp only [Optimize.statement, bind_eq_ok, pure_eq_ok] at optimized
    obtain ⟨condition, met, rfl⟩ := optimized
    exact .view rfl (Optimized.bool_iff.2 met)
  | funnel known =>
    simp only [Optimize.statement, Optimize.funnel, bind_eq_ok, pure_eq_ok] at optimized
    obtain ⟨_, ⟨steps, stepped, within, lasting, rfl⟩, rfl⟩ := optimized
    exact .funnel rfl rfl (forall₂_of_mapM stepped fun _ _ => becomes_step)
      (Validate.folds_of_duration lasting) (kept _)
  | segment known =>
    simp only [Optimize.statement, Optimize.segment, bind_eq_ok, pure_eq_ok] at optimized
    obtain ⟨_, ⟨definitions, defined, rfl⟩, rfl⟩ := optimized
    refine .segment rfl (forall₂_of_mapM defined fun _ _ optimized => ?_)
    simp only [bind_eq_ok, pure_eq_ok] at optimized
    obtain ⟨condition, met, rfl⟩ := optimized
    exact Optimized.bool_iff.2 met

end Optimize

/-! ### Binding -/

/-- The context inside more frames. -/
def Context.inside (context : Context) (frames : List Frame) : Context :=
  { context with frames := frames ++ context.frames }

theorem Context.SamePlace.enter {context inner : Context} (same : context.SamePlace inner)
    (frame : Frame) : (context.inside [frame]).SamePlace (inner.enter frame) :=
  ⟨same.schema, same.settings, congrArg (frame :: ·) same.frames⟩

namespace Bind

variable {context inner : Context}

theorem everywhere_bound_bool {node node' : BoolExpr} (same : context.SamePlace inner)
    (binds : node.bind inner = .ok node') : (Expr.bool node').Everywhere (Expr.Bound context) :=
  (Expr.BindsIn.bool binds).everywhere_bound.imp fun _ bound => bound.of_samePlace same

theorem everywhere_bound_value {node node' : ValueExpr} (same : context.SamePlace inner)
    (binds : node.bind inner = .ok node') : (Expr.value node').Everywhere (Expr.Bound context) :=
  (Expr.BindsIn.value binds).everywhere_bound.imp fun _ bound => bound.of_samePlace same

private theorem everywhere_bound_option {node : Option ValueExpr} {found : ValueExpr}
    (same : context.SamePlace inner) (binds : option inner node = .ok (some found)) :
    (Expr.value found).Everywhere (Expr.Bound context) := by
  obtain ⟨source, -, binds⟩ := exists_of_rel_some (rel_of_option_mapM binds fun _ _ => id)
  exact everywhere_bound_value same (Stopped.forget_eq_ok.1 binds)

/-- A timing that is filled in is a path of the schema. -/
theorem eq_path_of_timing {condition : BoolExpr} {sources : List Path} {span : Span}
    {node : ValueExpr} (found : timing context condition sources span = .ok node) :
    ∃ path : Path, node = .path .none path.dotted (some path) := by
  simp only [timing, bind_eq_ok] at found
  obtain ⟨_, _, found⟩ := found
  split at found
  case h_1 ordinal _ => exact ⟨ordinal, (pure_eq_ok.1 found).symm⟩
  case h_2 => cases found

/-- A trigger has all its parts when it is bound, and these are bound. -/
private theorem trigger_eq_ok {trigger trigger' : Trigger} {condition : BoolExpr}
    {sources : List Path} {span : Span} (same : context.SamePlace inner)
    (binds : Bind.trigger inner trigger condition sources span = .ok trigger') :
    trigger'.Timed (fun _ => True) ∧
      ∀ node ∈ trigger'.given, (Expr.value node).Everywhere (Expr.Bound context) := by
  simp only [Bind.trigger, bind_eq_ok] at binds
  obtain ⟨given, first, within, second, after, third, binds⟩ := binds
  have duration {known : Option ValueExpr} {source : Option ValueExpr}
      (binds : option inner source = .ok known) :
      (Expr.value (known.getD zero)).Everywhere (Expr.Bound context) := by
    cases known with
    | none => exact .of_isLiteral rfl trivial
    | some known => exact everywhere_bound_option same binds
  cases given with
  | none =>
    simp only [bind_eq_ok, pure_eq_ok] at binds
    obtain ⟨timing, timed, rfl⟩ := binds
    obtain ⟨path, rfl⟩ := eq_path_of_timing timed
    refine ⟨⟨⟨_, rfl⟩, ⟨_, rfl, trivial⟩, _, rfl, trivial⟩, Trigger.forall_given.2 ⟨?_, ?_, ?_⟩⟩
    · rintro node ⟨⟩
      exact .node rfl (List.forall_mem_nil _)
    · rintro node ⟨⟩
      exact duration second
    · rintro node ⟨⟩
      exact duration third
  | some given =>
    obtain rfl := pure_eq_ok.1 binds
    refine ⟨⟨⟨_, rfl⟩, ⟨_, rfl, trivial⟩, _, rfl, trivial⟩, Trigger.forall_given.2 ⟨?_, ?_, ?_⟩⟩
    · rintro node ⟨⟩
      exact everywhere_bound_option same first
    · rintro node ⟨⟩
      exact duration second
    · rintro node ⟨⟩
      exact duration third

private theorem step_eq_ok {sources : List Path} {step step' : Step}
    (same : context.SamePlace inner) (binds : Bind.step inner sources step = .ok step') :
    step'.id = step.id ∧
      (∀ trigger, step'.trigger = some trigger → trigger.Timed fun _ => True) ∧
      ∀ expr ∈ step'.expressions,
        expr.Everywhere (Expr.Bound (context.inside [.step step.id])) := by
  simp only [Bind.step, bind_eq_ok, pure_eq_ok, Stopped.forget_eq_ok] at binds
  obtain ⟨condition, met, trigger, triggered, rfl⟩ := binds
  have known {found : Trigger} (isTrigger : trigger = some found) :
      found.Timed (fun _ => True) ∧ ∀ node ∈ found.given,
        (Expr.value node).Everywhere (Expr.Bound (context.inside [.step step.id])) := by
    subst isTrigger
    obtain ⟨source, -, binds⟩ := exists_of_rel_some (rel_of_option_mapM triggered fun _ _ => id)
    exact trigger_eq_ok (same.enter _) binds
  exact ⟨rfl, fun found isTrigger => (known isTrigger).1, Step.forall_expressions.2
    ⟨everywhere_bound_bool (same.enter _) met, fun found isTrigger => (known isTrigger).2⟩⟩

private theorem query_eq_ok {known known' : Query}
    (same : (context.inside [.statement known.name]).SamePlace inner)
    (binds : Bind.query inner known = .ok known') :
    (Statement.query known').Each fun frames expr =>
      expr.Everywhere (Expr.Bound (context.inside frames)) := by
  simp only [Bind.query, bind_eq_ok, pure_eq_ok] at binds
  obtain ⟨selections, selected, condition, met, groupBy, grouped, limit, limited, rfl⟩ := binds
  refine Statement.each_query.2 ⟨fun selection listed => ?_, ?_, fun node listed => ?_, ?_⟩
  · obtain ⟨source, -, binds⟩ := exists_of_mem_right (mapM_eq_ok.1 selected) listed
    simp only [bind_eq_ok, pure_eq_ok, Stopped.forget_eq_ok] at binds
    obtain ⟨expr, binds, rfl⟩ := binds
    exact (Expr.BindsIn.iff_bind.2 binds).everywhere_bound.imp fun _ bound => bound.of_samePlace same
  · rintro node rfl
    obtain ⟨source, -, binds⟩ := exists_of_rel_some (option_mapM_eq_ok.1 met)
    exact everywhere_bound_bool same (Stopped.forget_eq_ok.1 binds)
  · obtain ⟨source, -, binds⟩ := exists_of_mem_right (mapM_eq_ok.1 grouped) listed
    exact everywhere_bound_value same (Stopped.forget_eq_ok.1 binds)
  · rintro node rfl
    exact everywhere_bound_option same limited

private theorem funnel_eq_ok {known known' : Funnel}
    (same : (context.inside [.statement (some known.name)]).SamePlace inner)
    (binds : Bind.funnel inner known = .ok known') :
    ((Statement.funnel known').Each fun frames expr =>
      expr.Everywhere (Expr.Bound (context.inside frames))) ∧
      (Statement.funnel known').Timed fun _ => True := by
  simp only [Bind.funnel, bind_eq_ok, pure_eq_ok, Stopped.forget_eq_ok] at binds
  obtain ⟨sourcePaths, _, within, lasting, limit, limited, steps, stepped, rfl⟩ := binds
  have related := mapM_eq_ok.1 stepped
  have bound {source step} (binds : Bind.step _ sourcePaths source = .ok step) :=
    step_eq_ok (same.enter (.funnel known.stepIds sourcePaths)) binds
  have ids : steps.map Step.id = known.stepIds :=
    map_eq_of_forall₂ (related.imp fun _ _ binds => (bound binds).1)
  constructor
  · refine Statement.each_funnel.2 ⟨?_, ?_, fun step listed => ?_⟩
    · rintro node ⟨⟩
      exact everywhere_bound_value same lasting
    · rintro node rfl
      exact everywhere_bound_option same limited
    · obtain ⟨source, -, binds⟩ := exists_of_mem_right related listed
      obtain ⟨id, -, bound⟩ := bound binds
      rw [id, Funnel.stepIds, ids]
      exact bound
  · refine ⟨⟨_, rfl, trivial⟩, fun step listed => ?_⟩
    obtain ⟨source, -, binds⟩ := exists_of_mem_right related listed
    exact (bound binds).2.1

/-- In a bound statement every expression is bound where it stands, and the timings and the
durations are there. -/
theorem statement_eq_ok {known known' : Statement}
    (binds : Bind.statement context known = .ok known') :
    (known'.Each fun frames expr => expr.Everywhere (Expr.Bound (context.inside frames))) ∧
      known'.Timed fun _ => True := by
  obtain ⟨symbols, -, bound⟩ := bind_eq_ok.1 binds
  have same : (context.inside [.statement known.name?]).SamePlace
      { (context.enter (.statement known.name?)).inScope none with symbols } := ⟨rfl, rfl, rfl⟩
  cases known with
  | query known =>
    simp only [bind_eq_ok, pure_eq_ok] at bound
    obtain ⟨known', bound, rfl⟩ := bound
    exact ⟨query_eq_ok same bound, trivial⟩
  | view known =>
    simp only [Bind.view, bind_eq_ok, pure_eq_ok, Stopped.forget_eq_ok] at bound
    obtain ⟨_, ⟨condition, met, rfl⟩, rfl⟩ := bound
    exact ⟨Statement.each_view.2 (everywhere_bound_bool same met), trivial⟩
  | funnel known =>
    simp only [bind_eq_ok, pure_eq_ok] at bound
    obtain ⟨known', bound, rfl⟩ := bound
    exact funnel_eq_ok same bound
  | segment known =>
    simp only [Bind.segment, bind_eq_ok, pure_eq_ok] at bound
    obtain ⟨_, ⟨_, _, definitions, defined, rfl⟩, rfl⟩ := bound
    refine ⟨Statement.each_segment.2 fun definition listed => ?_, trivial⟩
    obtain ⟨source, -, binds⟩ := exists_of_mem_right (mapM_eq_ok.1 defined) listed
    simp only [bind_eq_ok, pure_eq_ok, Stopped.forget_eq_ok] at binds
    obtain ⟨condition, met, rfl⟩ := binds
    exact everywhere_bound_bool same met

end Bind

end EventQuery
