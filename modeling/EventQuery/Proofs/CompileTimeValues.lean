import EventQuery.Calendar.Places
import EventQuery.Proofs.Skeletons

/-!
The values of a compiled program that have to be known at compile time are there. Binding
fills in what was left out, validation folds and bounds it, and optimization keeps it; none of
them loses or adds a statement.
-/
namespace EventQuery

open Outcome

namespace Statement.Becomes

variable {R : Expr → Expr → Prop} {L : ValueExpr → ValueExpr → Prop}
  {statement statement' : Statement}

private theorem exists_duration {part part' : Option ValueExpr} {node : ValueExpr}
    (related : Option.Rel ValueExpr.FoldsToDuration part part') (given : part = some node) :
    ∃ node', part' = some node' ∧ node'.IsDuration := by
  subst given
  obtain ⟨node', folds, rfl⟩ := rel_some_iff.1 related
  exact ⟨node', rfl, folds.isDuration⟩

private theorem timed_trigger {trigger trigger' : Trigger}
    (becomes : Trigger.Becomes R trigger trigger') (timed : trigger.Timed fun _ => True) :
    trigger'.Timed ValueExpr.IsDuration := by
  obtain ⟨⟨timing, isTiming⟩, ⟨within, isWithin, -⟩, after, isAfter, -⟩ := timed
  refine ⟨?_, exists_duration becomes.within isWithin, exists_duration becomes.after isAfter⟩
  have related := becomes.timing
  rw [isTiming] at related
  obtain ⟨timing', -, same⟩ := rel_some_iff.1 related
  exact ⟨timing', same.symm⟩

/-- Durations that are there become durations of a known number of milliseconds. -/
theorem timed (becomes : Becomes R L statement statement')
    (timed : statement.Timed fun _ => True) : statement'.Timed ValueExpr.IsDuration := by
  cases becomes with
  | funnel _ _ steps within _ =>
    obtain ⟨⟨duration, isDuration, -⟩, triggers⟩ := timed
    refine ⟨exists_duration within isDuration, fun step' listed trigger' isTrigger => ?_⟩
    obtain ⟨step, listed, becomes⟩ := exists_of_mem_right steps listed
    have related := becomes.trigger
    rw [isTrigger] at related
    obtain ⟨trigger, known, becomes⟩ := exists_of_rel_some related
    exact timed_trigger becomes (triggers step listed trigger known)
  | _ => trivial

theorem limit (becomes : Becomes R L statement statement') :
    Option.Rel L statement.limit? statement'.limit? := by
  cases becomes with
  | query _ _ _ _ limit => exact limit
  | funnel _ _ _ _ limit => exact limit
  | _ => exact .none

end Statement.Becomes

theorem Statement.Timed.weaken {D : ValueExpr → Prop} {statement : Statement}
    (timed : statement.Timed D) : statement.Timed fun _ => True := by
  cases statement with
  | funnel known =>
    obtain ⟨⟨node, given, -⟩, triggers⟩ := timed
    refine ⟨⟨node, given, trivial⟩, fun step listed trigger isTrigger => ?_⟩
    obtain ⟨timing, ⟨within, lasts, -⟩, after, waits, -⟩ := triggers step listed trigger isTrigger
    exact ⟨timing, ⟨within, lasts, trivial⟩, after, waits, trivial⟩
  | _ => trivial

/-- The compile-time values of a statement are in place: its timings and durations, its limit,
and the counts of its aggregations. -/
structure Statement.Settled (statement : Statement) : Prop where
  timed : statement.Timed ValueExpr.IsDuration
  limited : ∀ node, statement.limit? = some node → node.IsCount 0
  counted : statement.Each fun _ expr => expr.Everywhere Expr.Counted

namespace Statement.Settled

variable {context : Context} {statement bound valid : Statement} {fold : Bool}

/-- Validation of a bound statement settles it. -/
theorem of_validate [ZoneTable] (binds : Bind.statement context statement = .ok bound)
    (validates : Validate.statement bound = .ok valid) : valid.Settled := by
  obtain ⟨placed, timed⟩ := Bind.statement_eq_ok binds
  have becomes := Validate.becomes_statement validates
  refine ⟨becomes.timed timed, ?_, becomes.each placed ?_ ?_ ?_⟩
  · intro node isLimit
    have related := becomes.limit
    rw [isLimit] at related
    obtain ⟨_, -, folds⟩ := exists_of_rel_some related
    exact folds.isCount
  · exact fun _ _ literal => .of_isLiteral literal (Expr.counted_of_isLiteral literal)
  · exact fun _ _ _ bound validates => (validates.everywhere_bound bound).imp fun _ both => both.2
  · intro _ _ _ _ folds
    obtain ⟨span, value, rfl, -⟩ := folds.isCount
    exact .of_isLiteral rfl trivial

/-- Optimization keeps a statement settled. -/
theorem optimize (settled : statement.Settled)
    (optimizes : Optimize.statement fold statement = .ok valid) : valid.Settled := by
  have becomes := Optimize.becomes_statement optimizes
  refine ⟨becomes.timed settled.timed.weaken, ?_, becomes.each settled.counted ?_ ?_ ?_⟩
  · intro node isLimit
    have related := becomes.limit
    rw [isLimit] at related
    obtain ⟨_, isLimit, rfl⟩ := exists_of_rel_some related
    exact settled.limited _ isLimit
  · exact fun _ _ literal => .of_isLiteral literal (Expr.counted_of_isLiteral literal)
  · exact fun _ _ _ counted optimized => optimized.everywhere_counted counted
  · rintro _ _ _ counted rfl
    exact counted

end Statement.Settled

/-! ### Programs -/

/-- In a compiled program every funnel and every trigger has its durations, which are `LONG`
constants, every trigger has its timing, every limit is an integral constant that is not
negative, and every aggregation has its scope, its quanta, and its count if it is `TOP`. The
statements correspond to those of the source in number, kind, names, steps and all else that
no pass rewrites. -/
theorem settled_of_compile [ZoneTable] {session : Session} {program compiled : Program}
    (compiles : session.compile program = .ok compiled) :
    compiled.skeletons = program.skeletons ∧ ∀ statement ∈ compiled.statements,
      statement.Timed ValueExpr.IsDuration ∧
      (∀ node, statement.limit? = some node → node.IsCount 0) ∧
      ∀ expr ∈ Bind.expressions statement, expr.Everywhere Expr.Counted := by
  obtain ⟨-, settings, -, bound, binds, valid, validates, optimizes⟩ :=
    Session.compile_eq_ok.1 compiles
  refine ⟨(Program.skeletons_optimize optimizes).trans
    ((Program.skeletons_validate validates).trans (Program.skeletons_bind binds)), ?_⟩
  obtain ⟨symbols, -, bounds, eachBinds, -, rfl⟩ := Program.bind_eq_ok.1 binds
  obtain ⟨valids, eachValidates, rfl⟩ := Program.validate_eq_ok.1 validates
  obtain ⟨results, eachOptimizes, rfl⟩ := Program.optimize_eq_ok.1 optimizes
  intro statement listed
  obtain ⟨valid, listed, optimizes⟩ := exists_of_mem_right eachOptimizes listed
  obtain ⟨bound, listed, validates⟩ := exists_of_mem_right eachValidates listed
  obtain ⟨source, listed, binds⟩ := exists_of_mem_right eachBinds listed
  have settled := (Statement.Settled.of_validate binds validates).optimize optimizes
  exact ⟨settled.timed, settled.limited, settled.counted.of_mem_expressions⟩

/-- Users, since when they are known, and their hits. -/
private def knownUsers : Schema :=
  ⟨.relation ["user"], [.relation ["user"], .field ["user"] "since" ⟨.datetime, false, true⟩,
    .relation ["user", "hits"], .field ["user", "hits"] "id" ⟨.long, false, false⟩]⟩

/-- One step, for users with several hits, with a trigger that leaves everything out but how
long it lasts. -/
private def oneStep : Funnel :=
  let several : BoolExpr :=
    .ofComparison .gt (.ofAggregation .count (.ofPath "hits.id")) (.ofConstant (.integer 1))
  let lasting : ValueExpr := .ofConversion .minutes (.ofConstant (.integer 5))
  { span := .none, name := "f", kind := .conversion, parameters := [], sources := ["hits"],
    steps := [⟨.none, 1, several, some ⟨.none, none, some lasting, none⟩⟩],
    pattern := .step .none 1 true, within := none,
    limit := some (.ofBinary .add (.ofConstant (.integer 2)) (.ofConstant (.integer 3))),
    tags := [], sourcePaths := [] }

open Places

theorem settled_of_compile_funnel :
    ∃ compiled, (Session.ofSchema knownUsers).compile ⟨.none, [.funnel oneStep]⟩ = .ok compiled ∧
      compiled.skeletons = [Statement.skeleton (.funnel oneStep)] ∧
      ∀ statement ∈ compiled.statements,
        statement.Timed ValueExpr.IsDuration ∧
        (∀ node, statement.limit? = some node → node.IsCount 0) ∧
        ∀ expr ∈ Bind.expressions statement, expr.Everywhere Expr.Counted := by
  have succeeds :
      ((Session.ofSchema knownUsers).compile ⟨.none, [.funnel oneStep]⟩).isOk = true := by
    decide +kernel
  cases compiles : (Session.ofSchema knownUsers).compile ⟨.none, [.funnel oneStep]⟩ with
  | error cause =>
    rw [compiles] at succeeds
    cases succeeds
  | ok compiled => exact ⟨compiled, rfl, settled_of_compile compiles⟩

end EventQuery
