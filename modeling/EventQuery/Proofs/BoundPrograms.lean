import EventQuery.Calendar.Places
import EventQuery.Proofs.BoundPasses
import EventQuery.Proofs.Skeletons

/-!
Binding leaves nothing unresolved: whatever validation and optimization make of a bound
expression or a bound program, every node keeps its resolution, and no further pass fails over
a name without meaning. The statements of the program are those that were bound, one by one.
-/
namespace EventQuery

open Outcome

/-! ### Patterns -/

namespace NeverUnresolved

section Pattern

open Stopped (forget within check)
open Pattern (structureError)

variable {span : Span} {known steps : List Int64}

theorem checkKnown {id : Int64} : NeverUnresolved (Pattern.checkKnown known span id) := by
  unfold Pattern.checkKnown
  split <;> simp [structureError]

theorem checkBracket : NeverUnresolved (Pattern.checkBracket known span steps) := by
  unfold Pattern.checkBracket
  split
  · simp [structureError]
  · exact forM fun _ _ => checkKnown

theorem checkRepetition {least : Int64} {most : Option Int64} :
    NeverUnresolved (Pattern.checkBounds span least most) := by
  unfold Pattern.checkBounds
  cases most with
  | none =>
    dsimp only
    split <;> simp [structureError]
  | some most =>
    dsimp only
    split
    · simp [structureError]
    · split <;> simp [structureError]

theorem checkItems {op : ListOp} {items : List Pattern} {capturing : Bool} :
    NeverUnresolved (Pattern.checkItems span op items capturing) := by
  unfold Pattern.checkItems
  dsimp only
  split
  · simp [structureError]
  · split <;> simp [structureError]

theorem checkEdges {items : List Pattern} {capturing : Bool} :
    NeverUnresolved (Pattern.checkEdges items capturing) := by
  unfold Pattern.checkEdges
  split
  · dsimp only
    split <;> simp [structureError]
  · exact ok

mutual

theorem settle (pattern : Pattern) : NeverUnresolved (forget (Pattern.settle known pattern)) := by
  cases pattern with
  | step span id capturing => exact forget_bind (forget_check_iff.2 checkKnown) fun _ _ => ok
  | bracket => exact forget_bind (forget_check_iff.2 checkBracket) fun _ _ => ok
  | repetition span least most child capturing =>
    simp only [Pattern.settle]
    refine forget_bind (forget_check_iff.2 checkRepetition) fun _ _ => ?_
    refine forget_bind (forget_within_iff.2 (settle child)) fun _ _ => ?_
    split
    · simp [structureError]
    · exact ok
  | list span op items capturing =>
    simp only [Pattern.settle]
    split
    · simp [structureError]
    · refine forget_bind (forget_within_iff.2 (settleAll items)) fun _ _ => ?_
      refine forget_bind (forget_check_iff.2 checkItems) fun _ _ => ?_
      exact forget_bind (forget_check_iff.2 checkEdges) fun _ _ => ok

theorem settleAll (items : List Pattern) :
    NeverUnresolved (forget (Pattern.settleAll known items)) := by
  cases items with
  | nil => exact ok
  | cons item rest =>
    exact forget_bind (forget_within_iff.2 (settle item)) fun _ _ =>
      forget_bind (forget_within_iff.2 (settleAll rest)) fun _ _ => ok

end

/-- The checks of a pattern lack no name. -/
theorem validatePattern {pattern : Pattern} :
    NeverUnresolved (forget (pattern.validate known)) := by
  refine forget_bind (settle pattern) fun _ _ => ?_
  split
  · exact ok
  · simp [structureError]

end Pattern

/-! ### Statements -/

section Statement

open Stopped (forget)

variable {fold : Bool} {span : Span}

/-- The expression is bound in some place. -/
def IsBound (expr : Expr) : Prop := ∃ context, expr.Everywhere (Expr.Bound context)

theorem checkParameter {parameter : Parameter} :
    NeverUnresolved (Validate.checkParameter parameter) := by
  unfold Validate.checkParameter
  split
  · exact ok
  · split <;> simp

theorem limit {node : Option ValueExpr}
    (bound : ∀ found, node = some found → IsBound (.value found)) :
    NeverUnresolved (Validate.limit node) := by
  refine option_mapM fun found same => ?_
  obtain ⟨context, bound⟩ := bound found same
  exact (foldCount (reduce_value_iff.1 (reduce bound))).bind fun _ _ => ok

theorem duration {node : Option ValueExpr} {what : String}
    (bound : ∀ found, node = some found → IsBound (.value found)) :
    NeverUnresolved (Validate.duration node what) := by
  refine option_mapM fun found same => ?_
  obtain ⟨context, bound⟩ := bound found same
  exact foldDuration (reduce_value_iff.1 (reduce bound))

theorem checkSources {point : Option Path} {sources : List Path} :
    NeverUnresolved (Validate.checkSources point sources span) := by
  unfold Validate.checkSources
  split
  · exact ok
  · split <;> simp [Axis.scopeError]

theorem checkTiming {timing : ValueExpr} {timed condition : Option Path}
    (typed : NeverUnresolved timing.type) :
    NeverUnresolved (Validate.checkTiming timing timed condition) := by
  refine typed.bind fun _ _ => ?_
  cases timed <;> cases condition <;> dsimp only <;> split
  all_goals first | exact ok | simp | (split <;> simp [Axis.scopeError])

theorem trigger [ZoneTable] {point : Option Path} {known : Trigger}
    (bound : ∀ node ∈ known.given, IsBound (.value node)) :
    NeverUnresolved (Validate.trigger point known) := by
  obtain ⟨timed, lasting, waiting⟩ := Trigger.forall_given.1 bound
  refine (option_mapM fun node found => ?_).bind fun _ _ =>
    (duration lasting).bind fun _ _ => (duration waiting).bind fun _ _ => ok
  obtain ⟨context, bound⟩ := timed node found
  refine (checkedValue bound).bind fun (node', _) found => ?_
  have validates := ValueExpr.validate_of_checked (Stopped.forget_eq_ok.1 found)
  have bound' := ((Expr.ValidatesTo.value validates).everywhere_bound bound).imp fun _ both => both.1
  exact (checkTiming (type_value_iff.1 (type bound'))).bind fun _ _ => ok

theorem step [ZoneTable] {sources : List Path} {known : Step}
    (bound : ∀ expr ∈ known.expressions, IsBound expr) :
    NeverUnresolved (Validate.step sources known) := by
  obtain ⟨⟨context, met⟩, triggered⟩ := Step.forall_expressions.1 bound
  refine (checkedBool met).bind fun _ _ => checkSources.bind fun _ _ => ?_
  exact (option_mapM fun found same => trigger (triggered found same)).bind fun _ _ => ok

theorem definitions [ZoneTable] {sources : List Path} {seen : List String}
    {known : List SegmentDefinition}
    (bound : ∀ definition ∈ known, IsBound (.bool definition.condition)) :
    NeverUnresolved (Validate.definitions sources seen known) := by
  induction known generalizing seen with
  | nil => exact ok
  | cons definition rest ih =>
    obtain ⟨⟨context, first⟩, others⟩ := List.forall_mem_cons.1 bound
    simp only [Validate.definitions]
    split
    · simp
    · split
      · simp
      · exact (checkedBool first).bind fun _ _ => checkSources.bind fun _ _ =>
          (ih others).bind fun _ _ => ok

/-- The validation of a statement whose expressions are bound lacks no name. -/
theorem validateStatement [ZoneTable] {known : Statement} (bound : known.Each fun _ => IsBound) :
    NeverUnresolved (Validate.statement known) := by
  refine (forM fun _ _ => checkParameter).bind fun _ _ => ?_
  cases known with
  | query known =>
    obtain ⟨selected, met, grouped, limited⟩ := Statement.each_query.1 bound
    refine bind_pure_iff.2 ?_
    refine (mapM fun selection listed => ?_).bind fun _ _ =>
      (option_mapM fun node found => ?_).bind fun _ _ =>
        (mapM fun node listed => ?_).bind fun _ _ => (limit limited).bind fun _ _ => ok
    · obtain ⟨context, bound⟩ := selected selection listed
      exact (validate bound).bind fun _ _ => ok
    · obtain ⟨context, bound⟩ := met node found
      exact (checkedBool bound).bind fun _ _ => ok
    · obtain ⟨context, bound⟩ := grouped node listed
      exact (checkedValue bound).bind fun _ _ => ok
  | view known =>
    obtain ⟨context, met⟩ := Statement.each_view.1 bound
    exact bind_pure_iff.2 ((checkedBool met).bind fun _ _ => ok)
  | funnel known =>
    obtain ⟨lasting, limited, stepped⟩ := Statement.each_funnel.1 bound
    refine bind_pure_iff.2 ?_
    exact (mapM fun _ listed => step (stepped _ listed)).bind fun _ _ =>
      (duration lasting).bind fun _ _ => (limit limited).bind fun _ _ =>
        validatePattern.bind fun _ _ => ok
  | segment known =>
    exact bind_pure_iff.2 ((definitions (Statement.each_segment.1 bound)).bind fun _ _ => ok)

/-- The optimization of a statement whose expressions are bound lacks no name. -/
theorem optimizeStatement {known : Statement} (bound : known.Each fun _ => IsBound) :
    NeverUnresolved (Optimize.statement fold known) := by
  have bool {node : BoolExpr} (bound : IsBound (.bool node)) : NeverUnresolved (node.optimize fold) :=
    optimize_bool_iff.1 (optimize bound.choose_spec)
  have value {node : ValueExpr} (bound : IsBound (.value node)) :
      NeverUnresolved (node.optimize fold) := optimize_value_iff.1 (optimize bound.choose_spec)
  cases known with
  | query known =>
    obtain ⟨selected, met, grouped, -⟩ := Statement.each_query.1 bound
    refine bind_pure_iff.2 ?_
    refine (mapM fun selection listed => ?_).bind fun _ _ =>
      (option_mapM fun node found => bool (met node found)).bind fun _ _ =>
        (mapM fun node listed => value (grouped node listed)).bind fun _ _ => ok
    obtain ⟨context, bound⟩ := selected selection listed
    exact (optimize bound).bind fun _ _ => ok
  | view known => exact (bool (Statement.each_view.1 bound)).bind fun _ _ => ok
  | funnel known =>
    obtain ⟨lasting, -, stepped⟩ := Statement.each_funnel.1 bound
    refine bind_pure_iff.2 ?_
    refine (mapM fun step listed => ?_).bind fun _ _ => (duration lasting).bind fun _ _ => ok
    obtain ⟨met, triggered⟩ := Step.forall_expressions.1 (stepped step listed)
    refine (bool met).bind fun _ _ => (option_mapM fun trigger found => ?_).bind fun _ _ => ok
    obtain ⟨timed, lasting, waiting⟩ := Trigger.forall_given.1 (triggered trigger found)
    exact (option_mapM fun node found => value (timed node found)).bind fun _ _ =>
      (duration lasting).bind fun _ _ => (duration waiting).bind fun _ _ => ok
  | segment known =>
    refine bind_pure_iff.2 ((mapM fun definition listed => ?_).bind fun _ _ => ok)
    exact (bool (Statement.each_segment.1 bound definition listed)).bind fun _ _ => ok

end Statement

end NeverUnresolved

/-! ### Successors -/

/-- What validation and optimization make of an expression, in any order and number. -/
inductive Expr.LeadsTo [ZoneTable] (source : Expr) : Expr → Prop where
  | refl : LeadsTo source source
  | validated {mid expr} (earlier : LeadsTo source mid) (valid : mid.validated = .ok expr) :
    LeadsTo source expr
  | optimized {mid expr fold} (earlier : LeadsTo source mid)
    (optimized : mid.optimize fold = .ok expr) : LeadsTo source expr

/-- What validation and optimization make of a program, in any order and number. -/
inductive Program.LeadsTo [ZoneTable] (source : Program) : Program → Prop where
  | refl : LeadsTo source source
  | validated {mid program} (earlier : LeadsTo source mid) (valid : mid.validate = .ok program) :
    LeadsTo source program
  | optimized {mid program fold} (earlier : LeadsTo source mid)
    (optimized : mid.optimize fold = .ok program) : LeadsTo source program

/-- No pass over the expression fails over a name without meaning. -/
structure Expr.NamesKnown [ZoneTable] (expr : Expr) : Prop where
  type : NeverUnresolved expr.type
  point : NeverUnresolved expr.point
  validated : NeverUnresolved expr.validated
  checked : NeverUnresolved (Stopped.forget expr.validate)
  optimize : ∀ fold, NeverUnresolved (expr.optimize fold)

theorem Expr.everywhere_namesKnown [ZoneTable] {context : Context} {expr : Expr}
    (bound : expr.Everywhere (Expr.Bound context)) :
    expr.Everywhere fun node => node.Bound context ∧ node.NamesKnown :=
  bound.nested.imp fun _ bound => ⟨bound.here, .type bound, .point bound, .validated bound,
    .validate bound, fun _ => .optimize bound⟩

/-- What a bound expression leads to is bound. -/
theorem Expr.LeadsTo.everywhere_bound [ZoneTable] {context : Context} {source expr : Expr}
    (leads : source.LeadsTo expr) (bound : source.Everywhere (Expr.Bound context)) :
    expr.Everywhere (Expr.Bound context) := by
  induction leads with
  | refl => exact bound
  | validated _ valid ih =>
    exact ((Expr.validated_eq_ok.1 valid).everywhere_bound ih).imp fun _ both => both.1
  | optimized _ optimized ih => exact Optimized.everywhere_bound optimized ih

/-- Every expression of the statement is bound where it stands. -/
def Statement.Bound (context : Context) (statement : Statement) : Prop :=
  statement.Each fun frames expr => expr.Everywhere (Expr.Bound (context.inside frames))

namespace Statement.Bound

variable {context : Context} {statement statement' : Statement} {fold : Bool}

theorem each (bound : statement.Bound context) : statement.Each fun _ => NeverUnresolved.IsBound :=
  fun place listed => ⟨_, bound place listed⟩

theorem validate [ZoneTable] (bound : statement.Bound context)
    (valid : Validate.statement statement = .ok statement') : statement'.Bound context := by
  refine (Validate.becomes_statement valid).each bound ?_ ?_ ?_
  · exact fun _ _ literal => .of_isLiteral literal (Expr.bound_of_isLiteral literal)
  · exact fun _ _ _ bound validates => (validates.everywhere_bound bound).imp fun _ both => both.1
  · intro _ _ _ _ folds
    obtain ⟨span, value, rfl, -⟩ := folds.isCount
    exact .of_isLiteral rfl trivial

theorem optimize (bound : statement.Bound context)
    (optimized : Optimize.statement fold statement = .ok statement') :
    statement'.Bound context := by
  refine (Optimize.becomes_statement optimized).each bound ?_ ?_ ?_
  · exact fun _ _ literal => .of_isLiteral literal (Expr.bound_of_isLiteral literal)
  · exact fun _ _ _ bound optimized => optimized.everywhere_bound bound
  · rintro _ _ _ bound rfl
    exact bound

end Statement.Bound

/-- What a program with bound statements leads to has bound statements. -/
theorem Program.LeadsTo.bound [ZoneTable] {context : Context} {source program : Program}
    (leads : source.LeadsTo program)
    (bound : ∀ statement ∈ source.statements, statement.Bound context) :
    ∀ statement ∈ program.statements, statement.Bound context := by
  induction leads with
  | refl => exact bound
  | validated _ valid ih =>
    obtain ⟨statements, each, rfl⟩ := Program.validate_eq_ok.1 valid
    intro statement listed
    obtain ⟨earlier, listed, valid⟩ := exists_of_mem_right each listed
    exact (ih earlier listed).validate valid
  | optimized _ optimized ih =>
    obtain ⟨statements, each, rfl⟩ := Program.optimize_eq_ok.1 optimized
    intro statement listed
    obtain ⟨earlier, listed, optimized⟩ := exists_of_mem_right each listed
    exact (ih earlier listed).optimize optimized

theorem Program.LeadsTo.skeletons [ZoneTable] {source program : Program}
    (leads : source.LeadsTo program) : program.skeletons = source.skeletons := by
  induction leads with
  | refl => rfl
  | validated _ valid ih => exact (Program.skeletons_validate valid).trans ih
  | optimized _ optimized ih => exact (Program.skeletons_optimize optimized).trans ih

/-- Binding leaves nothing unresolved, in an expression or in a program: whatever validation and
optimization make of the result, every node keeps what binding left in it, and no further pass
fails over a name without meaning. Nothing gets lost on the way: the statements correspond to
those of the source in number, kind, names, steps and all else that no pass rewrites. -/
theorem resolved_of_bind [ZoneTable] :
    (∀ (context : Context) (source bound : Expr), source.bind context = .ok bound →
      ∀ expr, bound.LeadsTo expr →
        expr.Everywhere fun node => node.Bound context ∧ node.NamesKnown) ∧
    ∀ (context : Context) (source bound : Program), source.bind context = .ok bound →
      ∀ program, bound.LeadsTo program →
        program.skeletons = source.skeletons ∧
        (∀ statement ∈ program.statements, ∀ place ∈ statement.placed,
          ∀ expr, place.2.LeadsTo expr →
            expr.Everywhere fun node => node.Bound (context.inside place.1) ∧ node.NamesKnown) ∧
        NeverUnresolved program.validate ∧ ∀ fold, NeverUnresolved (program.optimize fold) := by
  constructor
  · intro context source bound binds expr leads
    have binds := Expr.BindsIn.iff_bind.2 binds
    exact Expr.everywhere_namesKnown (leads.everywhere_bound binds.everywhere_bound)
  · intro context source bound binds program leads
    have same := leads.skeletons.trans (Program.skeletons_bind binds)
    obtain ⟨symbols, -, statements, each, -, rfl⟩ := Program.bind_eq_ok.1 binds
    have stays : ∀ statement ∈ program.statements, statement.Bound context := by
      refine leads.bound fun statement listed => ?_
      obtain ⟨source, -, binds⟩ := exists_of_mem_right each listed
      exact (Bind.statement_eq_ok binds).1
    refine ⟨same, fun statement listed place placed expr leads => ?_, ?_, fun fold => ?_⟩
    · exact Expr.everywhere_namesKnown (leads.everywhere_bound (stays statement listed place placed))
    · refine NeverUnresolved.bind_pure_iff.2 (.mapM fun statement listed => ?_)
      exact .validateStatement (stays statement listed).each
    · refine NeverUnresolved.bind_pure_iff.2 (.mapM fun statement listed => ?_)
      exact .optimizeStatement (stays statement listed).each

/-- Users, since when they are known, and their hits. -/
private def usersAndHits : Context :=
  .start ⟨.relation ["user"], [.relation ["user"], .field ["user"] "since" ⟨.datetime, false, true⟩,
    .relation ["user", "hits"], .field ["user", "hits"] "id" ⟨.long, false, false⟩]⟩
    ⟨.utc, true⟩ .builtin

/-- The number of hits with a good id. -/
private def goodHits : ValueExpr :=
  .aggregation .none .count none (.ofPath "hits.id")
    (some (.ofComparison .gt (.ofPath "hits.id") (.ofConstant (.integer 7)))) none none none

/-- Two steps; the second one asks about the first and leaves its timing out. -/
private def twoSteps : Program :=
  let first : BoolExpr := .ofComparison .gt goodHits (.ofConstant (.integer 1))
  let second : BoolExpr := .ofBinary .or (.ofStep 1) first
  ⟨.none, [.funnel
    { span := .none, name := "f", kind := .conversion, parameters := [], sources := [],
      steps := [⟨.none, 1, first, none⟩, ⟨.none, 2, second, some ⟨.none, none, none, none⟩⟩],
      pattern := .step .none 1 true, within := none, limit := none, tags := [],
      sourcePaths := [] }]⟩

open Places

theorem resolved_of_bind_steps :
    (∃ bound, (Expr.value goodHits).bind usersAndHits = .ok bound ∧
      ∀ expr, bound.LeadsTo expr →
        expr.Everywhere fun node => node.Bound usersAndHits ∧ node.NamesKnown) ∧
    ∃ bound, twoSteps.bind usersAndHits = .ok bound ∧
      ∀ program, bound.LeadsTo program →
        program.skeletons = twoSteps.skeletons ∧
        (∀ statement ∈ program.statements, ∀ place ∈ statement.placed,
          ∀ expr, place.2.LeadsTo expr → expr.Everywhere fun node =>
            node.Bound (usersAndHits.inside place.1) ∧ node.NamesKnown) ∧
        NeverUnresolved program.validate ∧ ∀ fold, NeverUnresolved (program.optimize fold) := by
  have exprBinds : ((Expr.value goodHits).bind usersAndHits).isOk = true := by decide +kernel
  have programBinds : (twoSteps.bind usersAndHits).isOk = true := by decide +kernel
  constructor
  · cases binds : (Expr.value goodHits).bind usersAndHits with
    | error cause =>
      rw [binds] at exprBinds
      cases exprBinds
    | ok bound => exact ⟨bound, rfl, resolved_of_bind.1 _ _ _ binds⟩
  · cases binds : twoSteps.bind usersAndHits with
    | error cause =>
      rw [binds] at programBinds
      cases programBinds
    | ok bound => exact ⟨bound, rfl, resolved_of_bind.2 _ _ _ binds⟩

end EventQuery
