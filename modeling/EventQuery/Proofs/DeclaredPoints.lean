import EventQuery.Proofs.Anchors
import EventQuery.Proofs.SchemaNames

/-!
Where bound expressions are evaluated. Binding takes every path from the schema, and a schema has
the relations around its paths too. So the point of a bound expression is a relation that the schema
declares.
-/
namespace EventQuery

open Outcome Axis

variable {declaration : RelationDeclaration} {context : Context}

/-! ### Declared paths -/

namespace Schema

variable {schema : Schema} {path : Path}

theorem home_mem (built : ofDeclaration declaration = .ok schema) (listed : path ∈ schema.paths) :
    path.home ∈ schema.paths := by
  refine relation_mem_of_prefix built listed (fun outside => ?_) (List.prefix_refl _)
  have longer := ((contributed built).inside path listed).length_le
  rw [outside] at longer
  cases longer

theorem parent?_mem (built : ofDeclaration declaration = .ok schema) (listed : path ∈ schema.paths)
    {parent : Path} (around : path.parent? = some parent) : parent ∈ schema.paths := by
  cases path with
  | field owner name info =>
    cases around
    exact home_mem built listed
  | relation segments =>
    simp only [Path.parent?, Option.ite_none_right_eq_some, Option.some.injEq] at around
    obtain ⟨several, rfl⟩ := around
    refine relation_mem_of_prefix built listed (fun absent => ?_) (List.dropLast_prefix _)
    have shorter := congrArg List.length absent
    rw [List.length_dropLast, List.length_nil] at shorter
    omega

theorem lowest?_mem (built : ofDeclaration declaration = .ok schema) {a b lowest : Path}
    (first : a ∈ schema.paths) (second : b ∈ schema.paths) (meets : a.lowest? b = some lowest) :
    lowest ∈ schema.paths := by
  unfold Path.lowest? at meets
  split at meets
  · cases meets
    exact home_mem built second
  · split at meets
    · cases meets
      exact home_mem built first
    · cases meets

end Schema

namespace Bind

variable {name : String} {span : Span} {place : Path}

theorem mem_of_path (found : path context name span = .ok place) :
    place ∈ context.schema.paths := by
  unfold path at found
  split at found
  · cases found
    exact Schema.mem_of_resolve ‹_›
  · cases found
  · cases found

theorem mem_of_relation (found : relation context name span = .ok place) :
    place ∈ context.schema.paths := by
  simp only [relation, bind_eq_ok] at found
  obtain ⟨candidate, named, found⟩ := found
  split at found
  · exact pure_eq_ok.1 found ▸ mem_of_path named
  · cases found

end Bind

/-! ### Bound expressions -/

namespace Expr

variable {source expr : Expr}

/-- What the node is tied to is declared. -/
def TiedInside (schema : Schema) (expr : Expr) : Prop :=
  ∀ path, expr.anchor? = some path → path ∈ schema.paths

theorem tiedInside_of_combines {schema : Schema} (combined : expr.combines = true) :
    expr.TiedInside schema := by
  intro path tied
  cases (anchor?_of_combines combined).symm.trans tied

namespace BindsIn

/-- Binding gives a path only for a path. -/
private theorem mem_of_bind_path {node : ValueExpr} {span : Span} {name : String} {place : Path}
    (binds : node.bind context = .ok (.path span name (some place))) :
    place ∈ context.schema.paths := by
  by_cases plain : (Expr.value node).isPlain = true
  · have same := ((sameNode_iff plain).1 (.value binds)).isPlain_eq
    cases same.trans plain
  cases node <;> first | exact absurd rfl plain | skip
  case path =>
    simp only [ValueExpr.bind, bind_eq_ok, pure_eq_ok, Stopped.check_eq_ok] at binds
    obtain ⟨found, named, same⟩ := binds
    cases same
    exact Bind.mem_of_path named
  case parameter =>
    simp [ValueExpr.bind] at binds
  case quantum =>
    simp [ValueExpr.bind] at binds
  case call =>
    obtain ⟨_, -, ⟨_, -, same⟩ | ⟨-, _, _, -, -, same⟩⟩ := Bind.call_iff.1 binds <;> cases same
  case aggregation =>
    obtain ⟨_, _, _, _, _, -, -, -, -, -, same⟩ := Bind.aggregation_iff.1 binds
    cases same

/-- The path that a bound argument names is declared. -/
private theorem target_mem {call : String} {nodes nodes' : List ValueExpr} {node' : ValueExpr}
    {place : Path}
    (bound : List.Forall₂ (fun node node' => node.bind context = .ok node') nodes nodes')
    (listed : node' ∈ nodes') (named : Bind.target call node' = .ok place) :
    place ∈ context.schema.paths := by
  obtain ⟨span, text, rfl⟩ := Bind.target_eq_ok named
  obtain ⟨node, -, binds⟩ := exists_of_mem_right bound listed
  exact mem_of_bind_path binds

/-- A call is about a path that its argument names. -/
private theorem mem_of_callState {known : Function} {name : String}
    {nodes nodes' : List ValueExpr} {place : Path}
    (bound : List.Forall₂ (fun node node' => node.bind context = .ok node') nodes nodes')
    (described : Bind.callState context name known nodes' = .ok (.target place)) :
    place ∈ context.schema.paths := by
  unfold Bind.callState at described
  split at described
  · cases described
  · simp only [bind_eq_ok, pure_eq_ok] at described
    obtain ⟨found, named, same⟩ := described
    cases same
    exact target_mem bound List.mem_cons_self named
  · simp only [bind_eq_ok] at described
    obtain ⟨found, named, sized⟩ := described
    split at sized
    · cases pure_eq_ok.1 sized
      exact target_mem bound List.mem_cons_self named
    · cases sized
  · cases described

private theorem ne_referent_of_callState {known : Function} {name text : String}
    {nodes : List ValueExpr} {place : Path} :
    Bind.callState context name known nodes ≠ .ok (.referent text place) := by
  intro described
  unfold Bind.callState at described
  split at described
  · cases described
  · simp only [bind_eq_ok, pure_eq_ok] at described
    obtain ⟨_, -, same⟩ := described
    cases same
  · simp only [bind_eq_ok] at described
    obtain ⟨_, -, sized⟩ := described
    split at sized <;> cases sized
  · cases described

private theorem tiedInside_call (built : Schema.ofDeclaration declaration = .ok context.schema)
    {span : Span} {name : String} {arguments : List ValueExpr} {binding : Option Binding}
    {node' : ValueExpr}
    (bound : (ValueExpr.call span name arguments binding).bind context = .ok node') :
    (Expr.value node').TiedInside context.schema := by
  intro path tied
  obtain ⟨known, found, state⟩ := Bind.call_iff.1 bound
  rcases state with ⟨state, unbound, rfl⟩ | ⟨-, arguments', state, all, described, rfl⟩
  · obtain ⟨complete, -⟩ := Bind.complete_of_unbound (Bind.accepts_of_function found) unbound
    obtain ⟨reference, rfl⟩ : ∃ reference, known = .about reference := by
      unfold Bind.unboundState? at unbound
      split at unbound
      · exact ⟨_, rfl⟩
      · cases unbound
    obtain ⟨_, _, -, named⟩ := complete.asked reference rfl
    obtain rfl : state = _ := named
    cases tied
    exact Schema.root_mem built
  · cases state with
    | plain => cases known <;> cases tied
    | zone => cases known <;> cases tied
    | referent => exact absurd described ne_referent_of_callState
    | target place =>
      have listed := mem_of_callState all described
      cases known
      case frequency =>
        cases tied
        exact Schema.home_mem built listed
      case size => exact Schema.parent?_mem built listed tied
      all_goals cases tied

/-- What a bound node is tied to is declared. -/
theorem tiedInside (built : Schema.ofDeclaration declaration = .ok context.schema)
    (binds : BindsIn context source expr) : expr.TiedInside context.schema := by
  by_cases plain : source.isPlain = true
  · have same := (sameNode_iff plain).1 binds
    exact tiedInside_of_combines (combines_of_isPlain (same.isPlain_eq.trans plain))
  cases binds with
  | @bool node node' bound =>
    cases node <;> first | exact absurd rfl plain | skip
    case boundary =>
      simp only [BoolExpr.bind, bind_eq_ok, Stopped.check_eq_ok, pure_eq_ok] at bound
      obtain ⟨place, found, rfl⟩ := bound
      rintro path ⟨⟩
      exact Bind.mem_of_relation found
    case stepReference =>
      simp only [BoolExpr.bind, bind_eq_ok, Stopped.check_eq_ok, pure_eq_ok] at bound
      obtain ⟨_, -, rfl⟩ := bound
      exact tiedInside_of_combines rfl
  | @value node node' bound =>
    cases node <;> first | exact absurd rfl plain | skip
    case path =>
      simp only [ValueExpr.bind, bind_eq_ok, pure_eq_ok, Stopped.check_eq_ok] at bound
      obtain ⟨place, found, rfl⟩ := bound
      rintro path ⟨⟩
      exact Schema.home_mem built (Bind.mem_of_path found)
    case parameter =>
      simp only [ValueExpr.bind, bind_eq_ok, pure_eq_ok] at bound
      obtain ⟨_, -, rfl⟩ := bound
      exact tiedInside_of_combines rfl
    case quantum =>
      simp only [ValueExpr.bind, bind_eq_ok, pure_eq_ok] at bound
      obtain ⟨_, -, rfl⟩ := bound
      exact tiedInside_of_combines rfl
    case call => exact tiedInside_call built bound
    case aggregation =>
      obtain ⟨_, _, _, _, _, found, -, -, -, -, rfl⟩ := Bind.aggregation_iff.1 bound
      rintro path ⟨⟩
      exact Bind.mem_of_relation found

/-- In a bound expression every node is tied to what is declared. -/
theorem everywhere_tiedInside (built : Schema.ofDeclaration declaration = .ok context.schema)
    (binds : BindsIn context source expr) : expr.Everywhere (TiedInside context.schema) := by
  induction source using Expr.byChildren generalizing expr context with
  | node source ih =>
    refine .node (binds.tiedInside built) fun child' member => ?_
    rcases binds.inversion.2 child' member with literal | ⟨child, listed, inner, surrounds, binds⟩
    · refine .of_isLiteral literal ?_
      obtain ⟨span, value, rfl | rfl⟩ := exists_of_isLiteral literal <;>
        exact tiedInside_of_combines rfl
    · have same : inner.schema = context.schema := surrounds.samePlace.schema
      rw [← same] at built ⊢
      exact ih child listed built binds

end BindsIn

/-- An expression whose nodes are tied to what is declared is evaluated there, if anywhere. -/
private theorem pointIn_of_tiedInside {schema : Schema} {root : Path}
    (built : Schema.ofDeclaration declaration = .ok schema)
    (resolved : expr.Everywhere (Resolved root)) (tied : expr.Everywhere (TiedInside schema)) :
    PointIn (fun path => path ∈ schema.paths) expr.point := by
  induction expr using Expr.byChildren with
  | node expr ih =>
    cases combined : expr.combines with
    | true =>
      rw [point_eq_combine combined]
      have start : PointIn (fun path => path ∈ schema.paths) (.ok none) :=
        fun _ found => by cases found
      exact pointIn_combineFrom (fun _ _ _ => Schema.lowest?_mem built) start
        (List.forall_mem_map.2 fun child member =>
          ih child member (resolved.child member) (tied.child member))
    | false =>
      intro path found
      obtain ⟨anchor, isAnchor, found'⟩ :=
        point_eq_anchor? resolved.here combined fun _ => ⟨some path, found⟩
      obtain rfl : path = anchor := Option.some.inj (Except.ok.inj (found.symm.trans found'))
      exact tied.here path isAnchor

/-- The point of a bound expression is declared. -/
theorem point_mem_of_bind (built : Schema.ofDeclaration declaration = .ok context.schema)
    {path : Path} (binds : BindsIn context source expr) (found : expr.point = .ok (some path)) :
    path ∈ context.schema.paths := by
  have resolved : expr.Everywhere (Resolved context.schema.root) :=
    BindsTo.resolved ⟨context, rfl, BindsIn.iff_bind.1 binds⟩
  exact pointIn_of_tiedInside built resolved (binds.everywhere_tiedInside built) path found

end Expr

end EventQuery
