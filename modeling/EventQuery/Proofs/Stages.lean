import EventQuery.Proofs.Outcome
import EventQuery.Session

/-!
A compilation succeeds when each of its stages does, and a stage of a program when it does
for every statement.
-/
namespace EventQuery

open Outcome

namespace Program

variable {program : Program}

theorem bind_eq_ok {context : Context} {bound : Program} :
    program.bind context = .ok bound ↔
      ∃ symbols, Bind.declare context.symbols program.statements = .ok symbols ∧
      ∃ statements, List.Forall₂
          (fun statement bound => Bind.statement { context with symbols } statement = .ok bound)
          program.statements statements ∧
        Bind.checkCycle (statements.foldl Bind.recordReferences symbols) = .ok () ∧
        { program with statements } = bound := by
  simp only [bind, Outcome.bind_eq_ok, pure_eq_ok, mapM_eq_ok]
  constructor
  · rintro ⟨symbols, declares, statements, binds, ⟨⟩, acyclic, rfl⟩
    exact ⟨symbols, declares, statements, binds, acyclic, rfl⟩
  · rintro ⟨symbols, declares, statements, binds, acyclic, rfl⟩
    exact ⟨symbols, declares, statements, binds, (), acyclic, rfl⟩

theorem validate_eq_ok [ZoneTable] {valid : Program} :
    program.validate = .ok valid ↔
      ∃ statements, List.Forall₂ (fun statement valid => Validate.statement statement = .ok valid)
          program.statements statements ∧ { program with statements } = valid := by
  simp only [validate, Outcome.bind_eq_ok, pure_eq_ok, mapM_eq_ok]

theorem optimize_eq_ok {fold : Bool} {optimized : Program} :
    program.optimize fold = .ok optimized ↔
      ∃ statements, List.Forall₂
          (fun statement optimized => Optimize.statement fold statement = .ok optimized)
          program.statements statements ∧ { program with statements } = optimized := by
  simp only [optimize, Outcome.bind_eq_ok, pure_eq_ok, mapM_eq_ok]

end Program

namespace Session

variable {session : Session}

theorem compile_eq_ok [ZoneTable] {program compiled : Program} :
    session.compile program = .ok compiled ↔
      Visit.checkDepth session.config.maxDepth (Visit.ofProgram program) = .ok () ∧
      ∃ settings, session.config.settings = .ok settings ∧
      ∃ bound, program.bind (session.context settings) = .ok bound ∧
      ∃ valid, bound.validate = .ok valid ∧ valid.optimize session.config.fold = .ok compiled := by
  simp [compile, Session.bind, Session.validate, Session.optimize, stage, Session.settings,
    Stopped.mapError_eq_ok, Unique.exists_iff]

theorem compileExpr_eq_ok [ZoneTable] {expr expr' : Expr} :
    session.compileExpr expr = .ok expr' ↔
      Visit.checkDepth session.config.maxDepth (Visit.ofExpr expr) = .ok () ∧
      ∃ settings, session.config.settings = .ok settings ∧
      ∃ bound, expr.bind (session.context settings) = .ok bound ∧
      ∃ valid point, bound.validate = .ok (valid, point) ∧
        valid.optimize session.config.fold = .ok expr' := by
  simp [compileExpr, stage, Session.settings, Stopped.mapError_eq_ok, Unique.exists_iff]

end Session

end EventQuery
