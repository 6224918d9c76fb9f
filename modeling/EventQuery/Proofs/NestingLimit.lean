import EventQuery.Calendar.Places
import EventQuery.Proofs.Heights

/-!
The limit on nesting. A program is made of trees, its expressions and its patterns, and the check
passes if none of them is higher than the limit; otherwise it reports the first node right below
it. Binding, validation and optimization make no tree higher and add leaves only where there is a
tree already, so a program that passes the check still passes it after every pass.
-/
namespace EventQuery

open Outcome

/-! ### The trees of a program -/

/-- An expression or a pattern that stands by itself in a statement. -/
inductive Tree where
  | expr (expr : Expr)
  | pattern (pattern : Pattern)

namespace Tree

def height : Tree → Nat
  | expr it => it.height
  | pattern it => it.height

/-- The levels and the spans of the nodes in the order of reading. -/
def places : Tree → List (Nat × Span)
  | expr it => (it.nodesFrom 1).map fun (level, node) => (level, node.span)
  | pattern it => (it.nodesFrom 1).map fun (level, node) => (level, node.span)

theorem height_pos (tree : Tree) : 0 < tree.height := by
  cases tree with
  | expr it => exact it.height_pos
  | pattern it => exact it.height_pos

/-- The levels go up to the height. -/
theorem places_le_iff {tree : Tree} {limit : Nat} :
    (∀ place ∈ tree.places, place.1 ≤ limit) ↔ tree.height ≤ limit := by
  cases tree with
  | expr it =>
    have levels : (∀ place ∈ it.nodesFrom (0 + 1), place.1 ≤ 0 + limit) ↔ it.height ≤ limit :=
      Expr.layered.levels_le_iff
    rw [Nat.zero_add, Nat.zero_add] at levels
    rw [places, List.forall_mem_map, height, ← levels]
  | pattern it =>
    have levels : (∀ place ∈ it.nodesFrom (0 + 1), place.1 ≤ 0 + limit) ↔ it.height ≤ limit :=
      Pattern.layered.levels_le_iff
    rw [Nat.zero_add, Nat.zero_add] at levels
    rw [places, List.forall_mem_map, height, ← levels]

end Tree

/-- The trees of a statement in the order of reading. -/
def Statement.trees : Statement → List Tree
  | query known =>
    known.selections.map (fun selection => .expr selection.expr)
      ++ known.condition.toList.map (fun condition => .expr (.bool condition))
      ++ known.groupBy.map (fun key => .expr (.value key))
      ++ known.limit.toList.map (fun limit => .expr (.value limit))
  | view known => [.expr (.bool known.condition)]
  | funnel known =>
    known.steps.flatMap (fun step => step.expressions.map .expr) ++ .pattern known.pattern
      :: known.within.toList.map (fun within => .expr (.value within))
      ++ known.limit.toList.map (fun limit => .expr (.value limit))
  | segment known => known.definitions.map fun definition => .expr (.bool definition.condition)

def Program.trees (program : Program) : List Tree := program.statements.flatMap Statement.trees

namespace Visit

variable {limit : Nat}

private theorem filterMap_statement {statement : Statement} {visits : List Visit} :
    (.statement statement :: visits).filterMap place? = visits.filterMap place? := rfl

private theorem filterMap_step {step : Step} {visits : List Visit} :
    (.step step :: visits).filterMap place? = visits.filterMap place? := rfl

theorem places_ofExpr (expr : Expr) :
    (ofExpr expr).filterMap place? = (Tree.expr expr).places := by
  simp [ofExpr, place?, Tree.places, List.filterMap_map, Function.comp_def]

private theorem places_ofBool (node : BoolExpr) :
    (ofBool node).filterMap place? = (Tree.expr (.bool node)).places := places_ofExpr _

private theorem places_ofValue (node : ValueExpr) :
    (ofValue node).filterMap place? = (Tree.expr (.value node)).places := places_ofExpr _

theorem places_ofPattern (pattern : Pattern) :
    (ofPattern pattern).filterMap place? = (Tree.pattern pattern).places := by
  simp [ofPattern, place?, Tree.places, List.filterMap_map, Function.comp_def]

theorem places_ofStep (step : Step) :
    (ofStep step).filterMap place? = (step.expressions.map Tree.expr).flatMap Tree.places := by
  cases isTrigger : step.trigger <;>
    simp [ofStep, Step.expressions, isTrigger, filterMap_step, places_ofBool, places_ofValue,
      List.filterMap_flatMap, List.flatMap_map, Trigger.given]

theorem places_ofStatement (statement : Statement) :
    (ofStatement statement).filterMap place? = statement.trees.flatMap Tree.places := by
  cases statement <;>
    simp [ofStatement, inQuery, inFunnel, inSegment, Statement.trees, filterMap_statement,
      places_ofExpr, places_ofBool, places_ofValue, places_ofStep, places_ofPattern,
      List.filterMap_flatMap, List.flatMap_map, List.flatMap_assoc]

theorem places_ofProgram (program : Program) :
    (ofProgram program).filterMap place? = program.trees.flatMap Tree.places := by
  simp [ofProgram, Program.trees, List.filterMap_flatMap, places_ofStatement, List.flatMap_assoc]

end Visit

/-! ### Passes over statements -/

namespace Statement

/-- The pattern that a statement matches. -/
def pattern? : Statement → Option Pattern
  | funnel known => some known.pattern
  | _ => none

/-- The trees of a statement are its expressions and its pattern. -/
theorem forall_trees {P : Tree → Prop} {statement : Statement} :
    (∀ tree ∈ statement.trees, P tree) ↔
      (∀ expr ∈ Bind.expressions statement, P (.expr expr)) ∧
        ∀ pattern, statement.pattern? = some pattern → P (.pattern pattern) := by
  rw [forall_expressions]
  cases statement with
  | query known =>
    rw [each_query]
    simp [trees, pattern?, or_imp, forall_and]
  | view known => simp [each_view, trees, pattern?]
  | funnel known =>
    simp only [each_funnel, trees, pattern?, List.forall_mem_append, List.forall_mem_cons,
      List.forall_mem_flatMap, List.forall_mem_map, Option.mem_toList, Option.some.injEq,
      forall_eq']
    constructor
    · rintro ⟨⟨stepped, matched, lasting⟩, limited⟩
      exact ⟨⟨lasting, limited, stepped⟩, matched⟩
    · rintro ⟨⟨lasting, limited, stepped⟩, matched⟩
      exact ⟨⟨stepped, matched, lasting⟩, limited⟩
  | segment known => simp [each_segment, trees, pattern?]

/-- No tree of the statement is higher than the limit. -/
def Shallow (limit : Nat) (statement : Statement) : Prop :=
  ∀ tree ∈ statement.trees, tree.height ≤ limit

variable {limit : Nat} {statement statement' : Statement}

/-- A statement with the same pattern and expressions that are no higher is as shallow, if there
are no expressions where there was no tree. -/
theorem Shallow.of_expressions (shallow : statement.Shallow limit)
    (vacant : statement.trees = [] → statement'.trees = [])
    (expressions : 0 < limit → ∀ expr ∈ Bind.expressions statement', expr.height ≤ limit)
    (patterns : ∀ pattern', statement'.pattern? = some pattern' →
      ∃ pattern, statement.pattern? = some pattern ∧ pattern'.height = pattern.height) :
    statement'.Shallow limit := by
  by_cases none : statement.trees = []
  · rw [Shallow, vacant none]
    exact List.forall_mem_nil _
  · obtain ⟨tree, listed⟩ := List.exists_mem_of_ne_nil _ none
    have positive := Nat.lt_of_lt_of_le tree.height_pos (shallow tree listed)
    refine forall_trees.2 ⟨expressions positive, fun pattern' found => ?_⟩
    obtain ⟨pattern, isPattern, same⟩ := patterns pattern' found
    rw [Tree.height, same]
    exact (forall_trees.1 shallow).2 pattern isPattern

end Statement

namespace Bind

variable {context : Context} {known known' : Statement}

theorem pattern?_of_statement (binds : statement context known = .ok known') :
    known'.pattern? = known.pattern? := by
  obtain ⟨symbols, -, bound⟩ := bind_eq_ok.1 binds
  cases known <;> simp only [bind_eq_ok, pure_eq_ok] at bound
  case funnel known =>
    simp only [funnel, bind_eq_ok, pure_eq_ok] at bound
    obtain ⟨_, ⟨_, _, _, _, _, _, _, _, rfl⟩, rfl⟩ := bound
    rfl
  all_goals
    obtain ⟨_, -, rfl⟩ := bound
    rfl

/-- Binding adds no tree to a statement without any. -/
private theorem vacant_of_statement (binds : statement context known = .ok known')
    (vacant : known.trees = []) : known'.trees = [] := by
  obtain ⟨symbols, -, bound⟩ := bind_eq_ok.1 binds
  cases known with
  | query known =>
    obtain ⟨_, _, _, selections, condition, groupBy, limit, _⟩ := known
    obtain ⟨rfl, rfl, rfl, rfl⟩ : selections = [] ∧ condition = none ∧ groupBy = [] ∧
        limit = none := by simpa [Statement.trees, and_assoc] using vacant
    obtain rfl := Except.ok.inj bound
    rfl
  | view known => cases vacant
  | funnel known => simp [Statement.trees] at vacant
  | segment known =>
    obtain ⟨_, _, _, _, definitions, _⟩ := known
    obtain rfl : definitions = [] := List.map_eq_nil_iff.1 vacant
    simp only [segment, bind_eq_ok, pure_eq_ok] at bound
    obtain ⟨_, ⟨_, _, definitions, defined, rfl⟩, rfl⟩ := bound
    cases mapM_eq_ok.1 defined
    rfl

/-- Binding makes no tree of a statement higher. What it puts in empty places is a leaf. -/
theorem shallow_of_statement {limit : Nat} (binds : statement context known = .ok known')
    (shallow : known.Shallow limit) : known'.Shallow limit := by
  refine shallow.of_expressions (vacant_of_statement binds) (fun positive expr' listed => ?_)
    fun pattern found => ⟨pattern, pattern?_of_statement binds ▸ found, rfl⟩
  have low := (Statement.forall_trees.1 shallow).1
  rw [expressions_eq] at listed low
  obtain ⟨slot', isSlot, given⟩ := List.mem_filterMap.1 listed
  obtain ⟨slot, isSource, keeps⟩ := exists_of_mem_right (slots_of_statement .refl binds) isSlot
  cases keeps with
  | @given role expr _ bound =>
    obtain rfl := Option.some.inj given
    obtain ⟨inner, -, bound⟩ := bound
    exact Nat.le_trans bound.height_le (low expr (List.mem_filterMap.2 ⟨_, isSource, rfl⟩))
  | absent => cases given
  | filled simple =>
    obtain rfl := Option.some.inj given
    rwa [Expr.height_of_isFilling simple]

end Bind

namespace Statement.Becomes

variable {R : Expr → Expr → Prop} {L : ValueExpr → ValueExpr → Prop}
  {statement statement' : Statement}

private theorem vacant (becomes : Becomes R L statement statement')
    (vacant : statement.trees = []) : statement'.trees = [] := by
  cases becomes with
  | @query known known' name selections condition groupBy limit =>
    obtain ⟨_, _, _, _, _, _, _, _⟩ := known
    obtain ⟨_, _, _, _, _, _, _, _⟩ := known'
    obtain ⟨rfl, rfl, rfl, rfl⟩ : _ = [] ∧ _ = none ∧ _ = [] ∧ _ = none := by
      simpa [trees, and_assoc] using vacant
    cases selections
    cases condition
    cases groupBy
    cases limit
    rfl
  | view => cases vacant
  | funnel => simp [trees] at vacant
  | @segment known known' name definitions =>
    rw [trees, List.map_eq_nil_iff] at vacant
    rw [vacant, List.forall₂_nil_left_iff] at definitions
    rw [trees, definitions, List.map_nil]

/-- A rewriting of expressions to no higher ones makes no tree of a statement higher. -/
theorem shallow {limit : Nat} (becomes : Becomes R L statement statement')
    (shallow : statement.Shallow limit)
    {P : Expr → Prop} (holds : ∀ expr ∈ Bind.expressions statement, P expr)
    (rewritten : ∀ expr expr', P expr → R expr expr' → expr'.height ≤ expr.height)
    (limited : ∀ node node', L node node' → (Expr.value node').height ≤ (Expr.value node).height)
    (patterns : ∀ pattern', statement'.pattern? = some pattern' →
      ∃ pattern, statement.pattern? = some pattern ∧ pattern'.height = pattern.height) :
    statement'.Shallow limit := by
  refine shallow.of_expressions becomes.vacant (fun positive => ?_) patterns
  have low := (Statement.forall_trees.1 shallow).1
  rw [forall_expressions] at low holds ⊢
  refine becomes.each (P := fun _ expr => expr.height ≤ limit ∧ P expr)
    (fun place listed => ⟨low place listed, holds place listed⟩) (fun _ expr literal => ?_)
    (fun _ expr expr' low related => ?_) fun _ node node' low related => ?_
  · rwa [Expr.height_of_isLiteral literal]
  · exact Nat.le_trans (rewritten expr expr' low.2 related) low.1
  · exact Nat.le_trans (limited node node' related) low.1

end Statement.Becomes
namespace Validate

theorem pattern?_of_statement [ZoneTable] {statement valid : Statement}
    (validates : Validate.statement statement = .ok valid) {pattern' : Pattern}
    (found : valid.pattern? = some pattern') :
    ∃ pattern, statement.pattern? = some pattern ∧ pattern.settled = pattern' := by
  obtain ⟨_, -, validates⟩ := bind_eq_ok.1 validates
  cases statement <;> simp only [bind_eq_ok, pure_eq_ok] at validates
  case funnel known =>
    simp only [funnel, bind_eq_ok, pure_eq_ok, Stopped.forget_eq_ok] at validates
    obtain ⟨_, ⟨_, _, _, _, _, _, pattern, settles, rfl⟩, rfl⟩ := validates
    obtain rfl := Option.some.inj found
    exact ⟨_, rfl, (Pattern.validate_eq_ok.1 settles).2.2⟩
  all_goals
    obtain ⟨_, -, rfl⟩ := validates
    cases found

/-- Validation makes no tree of a bound statement higher. -/
theorem shallow_of_statement [ZoneTable] {limit : Nat} {context : Context}
    {statement bound valid : Statement} (binds : Bind.statement context statement = .ok bound)
    (validates : Validate.statement bound = .ok valid) (shallow : bound.Shallow limit) :
    valid.Shallow limit := by
  have resolved : ∀ expr ∈ Bind.expressions bound, ∃ root, expr.Everywhere (Expr.Resolved root) :=
    Statement.forall_expressions.2 fun place listed =>
      ⟨_, ((Bind.statement_eq_ok binds).1 place listed).imp fun _ bound => bound.resolved⟩
  refine (becomes_statement validates).shallow shallow resolved
    (fun expr expr' ⟨root, resolved⟩ validates => validates.height_le resolved)
    (fun node node' folds => ?_) fun pattern' found => ?_
  · obtain ⟨span, value, rfl, -⟩ := folds.isCount
    rw [Expr.height_of_isLiteral rfl]
    exact Expr.height_pos _
  · obtain ⟨pattern, isPattern, rfl⟩ := pattern?_of_statement validates found
    exact ⟨pattern, isPattern, pattern.height_settled⟩

end Validate

namespace Optimize

variable {fold : Bool} {statement optimized : Statement}

theorem pattern?_of_statement (optimizes : Optimize.statement fold statement = .ok optimized) :
    optimized.pattern? = statement.pattern? := by
  cases statement <;> simp only [Optimize.statement, bind_eq_ok, pure_eq_ok] at optimizes
  case funnel known =>
    simp only [funnel, bind_eq_ok, pure_eq_ok] at optimizes
    obtain ⟨_, ⟨_, _, _, _, rfl⟩, rfl⟩ := optimizes
    rfl
  all_goals
    obtain ⟨_, -, rfl⟩ := optimizes
    rfl

/-- Optimization makes no tree of a statement higher. -/
theorem shallow_of_statement {limit : Nat}
    (optimizes : Optimize.statement fold statement = .ok optimized)
    (shallow : statement.Shallow limit) : optimized.Shallow limit := by
  refine (becomes_statement optimizes).shallow shallow (P := fun _ => True) (fun _ _ => trivial)
    (fun expr expr' _ optimized => optimized.height_le) (fun node node' same => ?_)
    fun pattern found => ⟨pattern, pattern?_of_statement optimizes ▸ found, rfl⟩
  rw [same]

end Optimize

/-! ### The limit -/

namespace Tree

/-- Descends into a tree and looks at all its nodes. -/
def descend (limit : Nat) (descent : Descent) : Tree → Descent
  | expr it => it.descend limit descent
  | pattern it => it.descend limit descent

/-- Descends into trees, one after the other. -/
def descendAll (limit : Nat) (trees : List Tree) : Descent :=
  trees.foldl (descend limit) ⟨0, none⟩

theorem descendAll_eq (limit : Nat) (trees : List Tree) :
    descendAll limit trees = Descent.past limit ⟨0, none⟩ (trees.flatMap places) := by
  refine Descent.past_flatMap fun tree _ along same => ?_
  cases tree with
  | expr it => rw [descend, it.descend_eq, same, places]
  | pattern it => rw [descend, it.descend_eq, same, places]

theorem climbs (trees : List Tree) :
    Climbs 1 ((trees.flatMap places).map Prod.fst) := by
  rw [List.map_flatMap]
  refine Climbs.flatMap fun tree _ => ?_
  cases tree with
  | expr it => simpa [places, Function.comp_def] using Expr.layered.climbs 1 it
  | pattern it => simpa [places, Function.comp_def] using Pattern.layered.climbs 1 it

end Tree

/-- What a descent has come to. -/
def Descent.verdict (limit : Nat) (descent : Descent) : Except Diagnostic Unit :=
  match descent.exceeded with
  | none => .ok ()
  | some span => .error (.of .limitExceeded span s!"nesting deeper than {limit}")

namespace Visit

/-- How the nesting of trees is checked by their nodes. -/
structure Checks (limit : Nat) (visits : List Visit) (trees : List Tree) : Prop where
  /-- A descent into the trees comes back to where it started, with the result of the check. -/
  descends : (Tree.descendAll limit trees).level = 0 ∧
    checkDepth limit visits = (Tree.descendAll limit trees).verdict limit
  /-- The check succeeds if no tree is higher than the limit. -/
  succeeds : checkDepth limit visits = .ok () ↔ ∀ tree ∈ trees, tree.height ≤ limit
  /-- Otherwise it reports the first node right below the limit; no node before it is deeper. -/
  fails : ∀ cause, checkDepth limit visits = .error cause ↔
    ∃ before span after, visits.filterMap place? = before ++ (limit + 1, span) :: after ∧
      (∀ place ∈ before, place.1 ≤ limit) ∧
      cause = .of .limitExceeded span s!"nesting deeper than {limit}"

private theorem find?_eq_some {limit : Nat} {places : List (Nat × Span)} {span : Span} :
    (places.find? fun place => limit < place.1) = some (limit + 1, span) ↔
      ∃ before after, places = before ++ (limit + 1, span) :: after ∧
        ∀ place ∈ before, place.1 ≤ limit := by
  rw [List.find?_eq_some_iff_append]
  simp

theorem checks_of_places {limit : Nat} {visits : List Visit} {trees : List Tree}
    (same : visits.filterMap place? = trees.flatMap Tree.places) : Checks limit visits trees where
  descends := by
    rw [Tree.descendAll_eq, checkDepth, same]
    refine ⟨rfl, ?_⟩
    simp only [Descent.past, Descent.verdict, Option.none_or]
    cases (trees.flatMap Tree.places).find? fun place => limit < place.1 <;> rfl
  succeeds := by
    have eachVisit : (∀ place ∈ visits.filterMap place?, place.1 ≤ limit) ↔
        ∀ visit ∈ visits, ∀ place, visit.place? = some place → place.1 ≤ limit := by
      simp only [List.mem_filterMap, forall_exists_index, and_imp]
      exact ⟨fun low visit listed place found => low place visit listed found,
        fun low place visit listed found => low visit listed place found⟩
    rw [checkDepth_eq_ok, ← eachVisit, same, List.forall_mem_flatMap]
    exact forall₂_congr fun tree _ => Tree.places_le_iff
  fails cause := by
    have climbs := Tree.climbs trees
    rw [← same] at climbs
    unfold checkDepth
    constructor
    · intro fails
      split at fails
      case h_1 level span found =>
        obtain rfl : level = limit + 1 := climbs.eq_of_find? (by omega) found
        obtain ⟨before, after, isList, low⟩ := find?_eq_some.1 found
        exact ⟨before, span, after, isList, low, (Except.error.inj fails).symm⟩
      case h_2 => cases fails
    · rintro ⟨before, span, after, isList, low, rfl⟩
      have found := find?_eq_some.2 ⟨before, after, isList, low⟩
      rw [found]

end Visit

/-! ### Programs and expressions -/

/-- A pass that makes no tree of a statement higher makes none of a program higher. -/
private theorem Program.shallow_of_each {limit : Nat} {program program' : Program}
    (shallow : ∀ tree ∈ program.trees, tree.height ≤ limit)
    (each : List.Forall₂
      (fun statement statement' => statement.Shallow limit → statement'.Shallow limit)
      program.statements program'.statements) :
    ∀ tree ∈ program'.trees, tree.height ≤ limit := by
  rw [trees, List.forall_mem_flatMap] at shallow ⊢
  intro statement' listed
  obtain ⟨statement, isSource, kept⟩ := exists_of_mem_right each listed
  exact kept (shallow statement isSource)

namespace Visit

/-- The limit on nesting is a limit on the height of the trees, and what keeps to it does so after
every pass. -/
theorem checkDepth_spec [ZoneTable] :
    (∀ limit program, Checks limit (ofProgram program) program.trees) ∧
    (∀ limit expr, Checks limit (ofExpr expr) [.expr expr]) ∧
    (∀ (limit : Nat) (context : Context) (fold : Bool) (program bound valid optimized : Program),
      checkDepth limit (ofProgram program) = .ok () → program.bind context = .ok bound →
        checkDepth limit (ofProgram bound) = .ok () ∧
        (bound.validate = .ok valid → checkDepth limit (ofProgram valid) = .ok () ∧
          (valid.optimize fold = .ok optimized →
            checkDepth limit (ofProgram optimized) = .ok ()))) ∧
    ∀ (limit : Nat) (context : Context) (fold : Bool) (expr bound valid optimized : Expr)
        (point : Option Path),
      checkDepth limit (ofExpr expr) = .ok () → expr.bind context = .ok bound →
        checkDepth limit (ofExpr bound) = .ok () ∧
        (bound.validate = .ok (valid, point) → checkDepth limit (ofExpr valid) = .ok () ∧
          (valid.optimize fold = .ok optimized →
            checkDepth limit (ofExpr optimized) = .ok ())) := by
  have ofPrograms (limit : Nat) (program : Program) :
      Checks limit (ofProgram program) program.trees := checks_of_places (places_ofProgram program)
  have ofExprs (limit : Nat) (expr : Expr) : Checks limit (ofExpr expr) [.expr expr] :=
    checks_of_places (by rw [places_ofExpr, List.flatMap_singleton])
  refine ⟨ofPrograms, ofExprs, ?_, ?_⟩
  · intro limit context fold program bound valid optimized shallow binds
    simp only [(ofPrograms _ _).succeeds] at shallow ⊢
    obtain ⟨symbols, -, statements, eachBinds, -, rfl⟩ := Program.bind_eq_ok.1 binds
    have shallow : ∀ tree ∈ Program.trees { program with statements }, tree.height ≤ limit :=
      Program.shallow_of_each shallow (eachBinds.imp fun _ _ => Bind.shallow_of_statement)
    refine ⟨shallow, fun validates => ?_⟩
    obtain ⟨valids, eachValidates, rfl⟩ := Program.validate_eq_ok.1 validates
    have eachKept : List.Forall₂ (fun bound valid => bound.Shallow limit → valid.Shallow limit)
        statements valids := by
      -- Validation keeps the height of what was bound, not of any statement.
      refine forall₂_imp_of_mem (fun bound listed valid validates => ?_) eachValidates
      obtain ⟨source, -, binds⟩ := exists_of_mem_right eachBinds listed
      exact Validate.shallow_of_statement binds validates
    have shallow : ∀ tree ∈ Program.trees { program with statements := valids },
        tree.height ≤ limit := Program.shallow_of_each shallow eachKept
    refine ⟨shallow, fun optimizes => ?_⟩
    obtain ⟨results, eachOptimizes, rfl⟩ := Program.optimize_eq_ok.1 optimizes
    exact Program.shallow_of_each shallow
      (eachOptimizes.imp fun _ _ => Optimize.shallow_of_statement)
  · intro limit context fold expr bound valid optimized point shallow binds
    simp only [(ofExprs _ _).succeeds, List.forall_mem_singleton, Tree.height] at shallow ⊢
    have binds := Expr.BindsIn.iff_bind.2 binds
    have shallow := Nat.le_trans binds.height_le shallow
    refine ⟨shallow, fun validates => ?_⟩
    have resolved := binds.everywhere_bound.imp fun _ bound => bound.resolved
    have shallow := Nat.le_trans ((Expr.validate_eq_ok validates).1.height_le resolved) shallow
    exact ⟨shallow, fun optimizes => Nat.le_trans (Optimized.height_le optimizes) shallow⟩

/-- Users with an id. -/
private def userIds : Context :=
  .start ⟨.relation ["user"], [.relation ["user"], .field ["user"] "id" ⟨.long, false, false⟩]⟩
    ⟨.utc, true⟩ .builtin

/-- The number of ids; binding puts the quanta beside what is counted. -/
private def idCount : Expr :=
  .value (.aggregation .none .count none (.ofPath "user.id") none none none none)

private def idCounts : Program :=
  ⟨.none, [.query ⟨.none, none, [], [⟨.none, idCount, none⟩], none, [], none, []⟩]⟩

private theorem exists_of_isOk {ε α : Type} {result : Except ε α} (succeeds : result.isOk = true) :
    ∃ value, result = .ok value := by
  cases result with
  | ok value => exact ⟨value, rfl⟩
  | error cause => cases succeeds

open Places

theorem checkDepth_spec_count :
    (∃ bound valid optimized, checkDepth 2 (ofProgram idCounts) = .ok () ∧
      idCounts.bind userIds = .ok bound ∧ bound.validate = .ok valid ∧
      valid.optimize true = .ok optimized ∧ checkDepth 2 (ofProgram optimized) = .ok ()) ∧
    ∃ bound valid point optimized, checkDepth 2 (ofExpr idCount) = .ok () ∧
      idCount.bind userIds = .ok bound ∧ bound.validate = .ok (valid, point) ∧
      valid.optimize true = .ok optimized ∧ checkDepth 2 (ofExpr optimized) = .ok () := by
  have shallow : checkDepth 2 (ofProgram idCounts) = .ok () := by decide +kernel
  have shallow' : checkDepth 2 (ofExpr idCount) = .ok () := by decide +kernel
  have compiles : (do
      let bound ← idCounts.bind userIds
      let valid ← bound.validate
      valid.optimize true).isOk = true := by decide +kernel
  have compiles' : (do
      let bound ← Stopped.forget (idCount.bind userIds)
      let checked ← Stopped.forget bound.validate
      checked.1.optimize true).isOk = true := by decide +kernel
  obtain ⟨optimized, compiles⟩ := exists_of_isOk compiles
  obtain ⟨optimized', compiles'⟩ := exists_of_isOk compiles'
  simp only [bind_eq_ok, Stopped.forget_eq_ok] at compiles compiles'
  obtain ⟨bound, binds, valid, validates, optimizes⟩ := compiles
  obtain ⟨bound', binds', ⟨valid', point⟩, validates', optimizes'⟩ := compiles'
  have kept := checkDepth_spec.2.2.1 2 userIds true idCounts bound valid optimized shallow
    binds
  have kept' := checkDepth_spec.2.2.2 2 userIds true idCount bound' valid' optimized' point
    shallow' binds'
  exact ⟨⟨bound, valid, optimized, shallow, binds, validates, optimizes,
      (kept.2 validates).2 optimizes⟩,
    bound', valid', point, optimized', shallow', binds', validates', optimizes',
      (kept'.2 validates').2 optimizes'⟩

end Visit

end EventQuery
