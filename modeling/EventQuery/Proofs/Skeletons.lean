import EventQuery.Proofs.CaptureFlags
import EventQuery.Proofs.Placement
import EventQuery.Proofs.Stages

/-!
What no pass changes. Binding, validation and optimization rewrite the expressions of a
statement, binding finds its sources and fills in its durations, and validation settles the
flags of its pattern. All the rest, the skeleton of the statement, stays as it was written, and
the statements of a program stay in their order.
-/
namespace EventQuery

open Outcome

/-- The column with a gap for its expression. -/
def Selection.skeleton (selection : Selection) : Selection :=
  { selection with expr := .bool (.ofTruth true) }

/-- The trigger without its timing and its durations. -/
def Trigger.skeleton (trigger : Trigger) : Trigger :=
  { trigger with timing := none, within := none, after := none }

/-- The step with a gap for its condition. -/
def Step.skeleton (step : Step) : Step :=
  { step with condition := .ofTruth true, trigger := step.trigger.map Trigger.skeleton }

/-- The class with a gap for its condition. -/
def SegmentDefinition.skeleton (definition : SegmentDefinition) : SegmentDefinition :=
  { definition with condition := .ofTruth true }

/-- The statement with gaps for its expressions, without the paths of its sources, and with
the flags of its pattern settled. The duration of a funnel is no part of it, nor are those of a
trigger: they may be left out until they are bound. -/
def Statement.skeleton : Statement → Statement
  | .query known => .query { known with
      selections := known.selections.map Selection.skeleton
      condition := known.condition.map fun _ => .ofTruth true
      groupBy := known.groupBy.map fun _ => .ofConstant .null
      limit := known.limit.map fun _ => .ofConstant .null }
  | .view known => .view { known with condition := .ofTruth true }
  | .funnel known => .funnel { known with
      steps := known.steps.map Step.skeleton
      pattern := known.pattern.settled
      within := none
      limit := known.limit.map fun _ => .ofConstant .null
      sourcePaths := [] }
  | .segment known => .segment { known with
      definitions := known.definitions.map SegmentDefinition.skeleton
      sourcePaths := [] }

/-- The statements of a program, one by one, but for what passes rewrite. -/
def Program.skeletons (program : Program) : List Statement :=
  program.statements.map Statement.skeleton

/-! ### Binding -/

namespace Bind

variable {context : Context}

private theorem skeleton_trigger {trigger trigger' : Trigger} {condition : BoolExpr}
    {sources : List Path} {span : Span}
    (binds : Bind.trigger context trigger condition sources span = .ok trigger') :
    trigger'.skeleton = trigger.skeleton := by
  simp only [Bind.trigger, bind_eq_ok] at binds
  obtain ⟨given, _, _, _, _, _, binds⟩ := binds
  cases given with
  | none =>
    obtain ⟨_, _, binds⟩ := bind_eq_ok.1 binds
    cases binds
    rfl
  | some given =>
    cases binds
    rfl

private theorem skeleton_step {sources : List Path} {step step' : Step}
    (binds : Bind.step context sources step = .ok step') : step'.skeleton = step.skeleton := by
  simp only [Bind.step, bind_eq_ok, pure_eq_ok] at binds
  obtain ⟨_, _, _, triggered, rfl⟩ := binds
  simp only [Step.skeleton, map_eq_of_option_mapM triggered fun _ _ => skeleton_trigger]

theorem skeleton_statement {statement statement' : Statement}
    (binds : Bind.statement context statement = .ok statement') :
    statement'.skeleton = statement.skeleton := by
  obtain ⟨symbols, -, bound⟩ := bind_eq_ok.1 binds
  cases statement with
  | query known =>
    simp only [Bind.query, bind_eq_ok, pure_eq_ok] at bound
    obtain ⟨_, ⟨selections, selected, _, met, _, grouped, _, limited, rfl⟩, rfl⟩ := bound
    have columns : selections.map Selection.skeleton = known.selections.map Selection.skeleton :=
      map_eq_of_mapM_pure selected fun _ _ => rfl
    simp only [Statement.skeleton, columns, map_eq_of_option_mapM met fun _ _ _ => rfl,
      map_eq_of_mapM grouped fun _ _ _ => rfl, map_eq_of_option_mapM limited fun _ _ _ => rfl]
  | view known =>
    simp only [Bind.view, bind_eq_ok, pure_eq_ok] at bound
    obtain ⟨_, ⟨_, -, rfl⟩, rfl⟩ := bound
    rfl
  | funnel known =>
    simp only [Bind.funnel, bind_eq_ok, pure_eq_ok] at bound
    obtain ⟨_, ⟨_, -, _, -, _, limited, _, stepped, rfl⟩, rfl⟩ := bound
    simp only [Statement.skeleton, map_eq_of_mapM stepped fun _ _ => skeleton_step,
      map_eq_of_option_mapM limited fun _ _ _ => rfl]
  | segment known =>
    simp only [Bind.segment, bind_eq_ok, pure_eq_ok] at bound
    obtain ⟨_, ⟨_, -, definitions, defined, rfl⟩, rfl⟩ := bound
    have classes : definitions.map SegmentDefinition.skeleton =
        known.definitions.map SegmentDefinition.skeleton :=
      map_eq_of_mapM_pure defined fun _ _ => rfl
    simp only [Statement.skeleton, classes]

end Bind

theorem Program.skeletons_bind {context : Context} {source bound : Program}
    (binds : source.bind context = .ok bound) : bound.skeletons = source.skeletons := by
  obtain ⟨_, -, _, each, -, rfl⟩ := Program.bind_eq_ok.1 binds
  exact map_eq_of_forall₂ (each.imp fun _ _ => Bind.skeleton_statement)

/-! ### Validation -/

namespace Validate

variable [ZoneTable]

private theorem skeleton_trigger {point : Option Path} {trigger trigger' : Trigger}
    (valid : Validate.trigger point trigger = .ok trigger') :
    trigger'.skeleton = trigger.skeleton := by
  simp only [Validate.trigger, bind_eq_ok, pure_eq_ok] at valid
  obtain ⟨_, _, _, _, _, _, rfl⟩ := valid
  rfl

private theorem skeleton_step {sources : List Path} {step step' : Step}
    (valid : Validate.step sources step = .ok step') : step'.skeleton = step.skeleton := by
  simp only [Validate.step, bind_eq_ok, pure_eq_ok] at valid
  obtain ⟨_, _, _, _, _, triggered, rfl⟩ := valid
  simp only [Step.skeleton, map_eq_of_option_mapM triggered fun _ _ => skeleton_trigger]

private theorem skeleton_definitions {sources : List Path} {seen : List String}
    {known known' : List SegmentDefinition}
    (valid : Validate.definitions sources seen known = .ok known') :
    known'.map SegmentDefinition.skeleton = known.map SegmentDefinition.skeleton := by
  induction known generalizing seen known' with
  | nil =>
    cases valid
    rfl
  | cons definition rest ih =>
    simp only [Validate.definitions] at valid
    split at valid
    case isTrue => cases valid
    case isFalse =>
      split at valid
      case isTrue => cases valid
      case isFalse =>
        simp only [bind_eq_ok, pure_eq_ok] at valid
        obtain ⟨_, _, _, _, rest', others, rfl⟩ := valid
        rw [List.map_cons, List.map_cons, ih others, SegmentDefinition.skeleton,
          SegmentDefinition.skeleton]

theorem skeleton_statement {statement statement' : Statement}
    (valid : Validate.statement statement = .ok statement') :
    statement'.skeleton = statement.skeleton := by
  obtain ⟨_, _, valid⟩ := bind_eq_ok.1 valid
  cases statement with
  | query known =>
    simp only [Validate.query, bind_eq_ok, pure_eq_ok] at valid
    obtain ⟨_, ⟨selections, selected, _, met, _, grouped, _, limited, rfl⟩, rfl⟩ := valid
    have columns : selections.map Selection.skeleton = known.selections.map Selection.skeleton :=
      map_eq_of_mapM_pure selected fun _ _ => rfl
    simp only [Statement.skeleton, columns, map_eq_of_option_mapM met fun _ _ _ => rfl,
      map_eq_of_mapM grouped fun _ _ _ => rfl, map_eq_of_option_mapM limited fun _ _ _ => rfl]
  | view known =>
    simp only [Validate.view, bind_eq_ok, pure_eq_ok] at valid
    obtain ⟨_, ⟨_, -, rfl⟩, rfl⟩ := valid
    rfl
  | funnel known =>
    simp only [Validate.funnel, bind_eq_ok, pure_eq_ok, Stopped.forget_eq_ok] at valid
    obtain ⟨_, ⟨_, stepped, _, -, _, limited, pattern, matched, rfl⟩, rfl⟩ := valid
    obtain ⟨-, -, rfl⟩ := Pattern.validate_eq_ok.1 matched
    simp only [Statement.skeleton, Pattern.settled_settled,
      map_eq_of_mapM stepped fun _ _ => skeleton_step,
      map_eq_of_option_mapM limited fun _ _ _ => rfl]
  | segment known =>
    simp only [Validate.segment, bind_eq_ok, pure_eq_ok] at valid
    obtain ⟨_, ⟨_, defined, rfl⟩, rfl⟩ := valid
    simp only [Statement.skeleton, skeleton_definitions defined]

end Validate

theorem Program.skeletons_validate [ZoneTable] {program valid : Program}
    (validates : program.validate = .ok valid) : valid.skeletons = program.skeletons := by
  obtain ⟨_, each, rfl⟩ := Program.validate_eq_ok.1 validates
  exact map_eq_of_forall₂ (each.imp fun _ _ => Validate.skeleton_statement)

/-! ### Optimization -/

namespace Optimize

variable {fold : Bool}

private theorem skeleton_trigger {trigger trigger' : Trigger}
    (optimized : Optimize.trigger fold trigger = .ok trigger') :
    trigger'.skeleton = trigger.skeleton := by
  simp only [Optimize.trigger, bind_eq_ok, pure_eq_ok] at optimized
  obtain ⟨_, _, _, _, _, _, rfl⟩ := optimized
  rfl

private theorem skeleton_step {step step' : Step}
    (optimized : Optimize.step fold step = .ok step') : step'.skeleton = step.skeleton := by
  simp only [Optimize.step, bind_eq_ok, pure_eq_ok] at optimized
  obtain ⟨_, _, _, triggered, rfl⟩ := optimized
  simp only [Step.skeleton, map_eq_of_option_mapM triggered fun _ _ => skeleton_trigger]

theorem skeleton_statement {statement statement' : Statement}
    (optimized : Optimize.statement fold statement = .ok statement') :
    statement'.skeleton = statement.skeleton := by
  cases statement with
  | query known =>
    simp only [Optimize.statement, Optimize.query, bind_eq_ok, pure_eq_ok] at optimized
    obtain ⟨_, ⟨selections, selected, _, met, _, grouped, rfl⟩, rfl⟩ := optimized
    have columns : selections.map Selection.skeleton = known.selections.map Selection.skeleton :=
      map_eq_of_mapM_pure selected fun _ _ => rfl
    simp only [Statement.skeleton, columns, map_eq_of_option_mapM met fun _ _ _ => rfl,
      map_eq_of_mapM grouped fun _ _ _ => rfl]
  | view known =>
    simp only [Optimize.statement, bind_eq_ok, pure_eq_ok] at optimized
    obtain ⟨_, -, rfl⟩ := optimized
    rfl
  | funnel known =>
    simp only [Optimize.statement, Optimize.funnel, bind_eq_ok, pure_eq_ok] at optimized
    obtain ⟨_, ⟨_, stepped, _, -, rfl⟩, rfl⟩ := optimized
    simp only [Statement.skeleton, map_eq_of_mapM stepped fun _ _ => skeleton_step]
  | segment known =>
    simp only [Optimize.statement, Optimize.segment, bind_eq_ok, pure_eq_ok] at optimized
    obtain ⟨_, ⟨definitions, defined, rfl⟩, rfl⟩ := optimized
    have classes : definitions.map SegmentDefinition.skeleton =
        known.definitions.map SegmentDefinition.skeleton :=
      map_eq_of_mapM_pure defined fun _ _ => rfl
    simp only [Statement.skeleton, classes]

end Optimize

theorem Program.skeletons_optimize {fold : Bool} {program result : Program}
    (optimizes : program.optimize fold = .ok result) : result.skeletons = program.skeletons := by
  obtain ⟨_, each, rfl⟩ := Program.optimize_eq_ok.1 optimizes
  exact map_eq_of_forall₂ (each.imp fun _ _ => Optimize.skeleton_statement)

end EventQuery
