import EventQuery.Proofs.PlainNodes

/-!
What binding establishes at every node, and optimization keeps: every name has its meaning,
every call fits its function, and every aggregation has the relation of its scope.
-/
namespace EventQuery

open Outcome

/-! ### Resolved nodes -/

/-- A bound call: the number of arguments is accepted, a call that describes a path has
the path for its argument, and one that asks about a statement has its name. -/
structure Binding.Fits (root : Path) (arguments : List ValueExpr) (binding : Binding) : Prop where
  accepted : binding.function.arity.accepts arguments.length = true
  described : binding.function = .frequency ∨ binding.function = .size →
    ∃ span name path, arguments = [.path span name (some path)]
  asked : ∀ reference, binding.function = .about reference →
    ∃ span name, arguments = [.constant span (.string name)] ∧ binding.state = .referent name root

/-- The binding of a call says all there is to say about it: it fits the arguments, and the
path or the statement that the call is about is known. -/
structure Binding.Complete (root : Path) (arguments : List ValueExpr) (binding : Binding) :
    Prop extends binding.Fits root arguments where
  located : binding.function = .frequency ∨ binding.function = .size →
    ∃ path, binding.state = .target path

/-- The node has its meaning: what binding leaves in it is there. -/
def Expr.Resolved (root : Path) : Expr → Prop
  | .bool (.boundary _ _ _ resolved) => ∃ path, resolved = some path ∧ path.isRelation = true
  | .value (.path _ _ resolved) => resolved.isSome = true
  | .value (.parameter _ _ type) => type.isSome = true
  | .value (.call _ _ arguments binding) =>
    ∃ known, binding = some known ∧ known.Fits root arguments
  | .value (.aggregation _ _ _ _ _ _ _ scopePath) =>
    ∃ path, scopePath = some path ∧ path.isRelation = true
  | _ => True

theorem Expr.resolved_of_isLiteral {root : Path} {expr : Expr} (literal : expr.isLiteral = true) :
    expr.Resolved root := by
  obtain ⟨span, value, rfl | rfl⟩ := Expr.exists_of_isLiteral literal <;> trivial

/-! ### Binding -/

/-- The second expression is the first one bound in some scope over the root. -/
def Expr.BindsTo (root : Path) (source expr : Expr) : Prop :=
  ∃ context : Context, context.schema.root = root ∧ source.bind context = .ok expr

namespace Bind

variable {context : Context} {span : Span} {name : String}

theorem isRelation_of_relation {path : Path} (found : relation context name span = .ok path) :
    path.isRelation = true := by
  simp only [relation, bind_eq_ok] at found
  obtain ⟨candidate, _, found⟩ := found
  split at found
  case isTrue holds => exact pure_eq_ok.1 found ▸ holds
  case isFalse => cases found

theorem checkStep_eq_ok {step : Int64} :
    checkStep context span step = .ok () ↔
      ∃ steps sources, context.funnel? = some (steps, sources) ∧ step ∈ steps ∧
        context.step? ≠ some step := by
  cases found : context.funnel? with
  | none => simp [checkStep, found]
  | some inner =>
    obtain ⟨steps, sources⟩ := inner
    by_cases defined : step ∈ steps <;> by_cases itself : context.step? = some step <;>
      simp [checkStep, found, defined, itself]

theorem accepts_of_function {count : Nat} {known : Function}
    (found : function context span name count = .ok known) :
    known.arity.accepts count = true := by
  unfold function at found
  split at found
  case h_1 =>
    simp only [bind_eq_ok, pure_eq_ok, exists_eq_left'] at found
    split at found
    case isTrue holds => exact pure_eq_ok.1 found ▸ holds
    case isFalse => cases found
  case h_2 => cases found
  case h_3 => cases found

theorem referent_eq_ok {reference : Reference} {argument : ValueExpr} {state : CallState}
    (found : referent context name reference argument = .ok state) :
    ∃ span text, argument = .constant span (.string text) ∧
      state = .referent text context.schema.root := by
  unfold referent at found
  dsimp only at found
  split at found
  case h_1 text named =>
    obtain ⟨value, literal, isText⟩ := Option.bind_eq_some_iff.1 named
    cases argument <;> simp only [ValueExpr.constant?, reduceCtorEq, Option.some.injEq] at literal
    cases value <;> simp only [Constant.string?, reduceCtorEq, Option.some.injEq] at isText
    subst literal isText
    split at found
    case isTrue => cases found
    case isFalse =>
      split at found
      case h_1 =>
        split at found
        case isTrue => exact ⟨_, _, rfl, (pure_eq_ok.1 found).symm⟩
        case isFalse => cases found
      case h_2 => cases found
  case h_2 => cases found

theorem target_eq_ok {argument : ValueExpr} {path : Path}
    (found : target name argument = .ok path) :
    ∃ span text, argument = .path span text (some path) := by
  unfold target at found
  split at found
  case h_1 resolved =>
    cases argument <;> simp only [ValueExpr.resolved?, reduceCtorEq] at resolved
    case path span text known =>
      obtain rfl := Except.ok.inj found
      exact ⟨span, text, by rw [resolved]⟩
  case h_2 => cases found

private theorem singleton_of_accepts {known : Function} {nodes : List ValueExpr}
    (one : known.arity = .exactly 1) (accepted : known.arity.accepts nodes.length = true) :
    ∃ node, nodes = [node] := by
  rw [one] at accepted
  exact List.length_eq_one_iff.1 (by simpa [Arity.accepts] using accepted)

/-- A call that names a statement keeps its argument, and this is the name. -/
theorem complete_of_unbound {known : Function} {nodes : List ValueExpr} {state : CallState}
    (accepted : known.arity.accepts nodes.length = true)
    (unbound : unboundState? context name known nodes = some (.ok state)) :
    Binding.Complete context.schema.root nodes ⟨known, state⟩ ∧
      ∃ span text, nodes = [.constant span (.string text)] := by
  unfold unboundState? at unbound
  split at unbound
  case h_1 reference argument rest =>
    obtain ⟨node, single⟩ := singleton_of_accepts rfl accepted
    obtain ⟨rfl, rfl⟩ := List.cons.inj single
    obtain ⟨span, text, rfl, rfl⟩ := referent_eq_ok (Option.some.inj unbound)
    have apart : ¬(Function.about reference = .frequency ∨ Function.about reference = .size) :=
      nofun
    exact ⟨⟨⟨accepted, fun described => absurd described apart,
      fun _ _ => ⟨span, text, rfl, rfl⟩⟩, fun described => absurd described apart⟩, span, text, rfl⟩
  case h_2 => cases unbound

theorem complete_of_bound {known : Function} {nodes nodes' : List ValueExpr} {state : CallState}
    (accepted : known.arity.accepts nodes.length = true)
    (bound : unboundState? context name known nodes = none)
    (same : nodes.length = nodes'.length)
    (found : callState context name known nodes' = .ok state) :
    Binding.Complete context.schema.root nodes' ⟨known, state⟩ := by
  rw [same] at accepted
  have described (about : known = .frequency ∨ known = .size) :
      (∃ span name path, nodes' = [.path span name (some path)]) ∧
        ∃ path, state = .target path := by
    rcases about with rfl | rfl
    · obtain ⟨node, rfl⟩ := singleton_of_accepts rfl accepted
      simp only [callState, bind_eq_ok, pure_eq_ok] at found
      obtain ⟨path, found, rfl⟩ := found
      obtain ⟨span, text, rfl⟩ := target_eq_ok found
      exact ⟨⟨span, text, path, rfl⟩, path, rfl⟩
    · obtain ⟨node, rfl⟩ := singleton_of_accepts rfl accepted
      simp only [callState, bind_eq_ok] at found
      obtain ⟨path, found, sized⟩ := found
      obtain ⟨span, text, rfl⟩ := target_eq_ok found
      refine ⟨⟨span, text, path, rfl⟩, path, ?_⟩
      split at sized
      case isTrue => exact (pure_eq_ok.1 sized).symm
      case isFalse => cases sized
  refine ⟨⟨accepted, fun about => (described about).1, fun reference asks => ?_⟩,
    fun about => (described about).2⟩
  · obtain rfl : known = .about reference := asks
    obtain ⟨node, rfl⟩ := singleton_of_accepts rfl accepted
    obtain ⟨node, rfl⟩ := List.length_eq_one_iff.1 same
    cases bound

/-- What binding does to a call. -/
theorem call_iff {arguments : List ValueExpr} {binding : Option Binding} {node' : ValueExpr} :
    (ValueExpr.call span name arguments binding).bind context = .ok node' ↔
      ∃ known, function context span name arguments.length = .ok known ∧
        ((∃ state, unboundState? context name known arguments = some (.ok state) ∧
            node' = .call span name arguments (some ⟨known, state⟩)) ∨
          unboundState? context name known arguments = none ∧ ∃ arguments' state,
            List.Forall₂ (fun node node' => node.bind context = .ok node') arguments arguments' ∧
            callState context name known arguments' = .ok state ∧
            node' = .call span name arguments' (some ⟨known, state⟩)) := by
  simp only [ValueExpr.bind, bind_eq_ok, Stopped.check_eq_ok]
  refine exists_congr fun known => and_congr_right fun _ => ?_
  cases unboundState? context name known arguments with
  | some state =>
    simp only [bind_eq_ok, Stopped.check_eq_ok, pure_eq_ok, Option.some.injEq, reduceCtorEq,
      false_and, or_false]
    exact exists_congr fun _ => and_congr_right fun _ => eq_comm
  | none =>
    simp only [bind_eq_ok, Stopped.check_eq_ok, Stopped.within_eq_ok, pure_eq_ok, bindAll_eq_ok,
      reduceCtorEq, false_and, exists_false, true_and, false_or]
    constructor
    · rintro ⟨arguments', all, state, found, rfl⟩
      exact ⟨arguments', state, all, found, rfl⟩
    · rintro ⟨arguments', state, all, found, rfl⟩
      exact ⟨arguments', all, state, found, rfl⟩

/-- The quanta of an aggregation is bound, or the default is put there. -/
def QuantaBinds (context : Context) (quanta quanta' : Option ValueExpr) : Prop :=
  Option.Rel (fun node node' => node.bind context = .ok node') (some (quanta.getD defaultQuanta))
    quanta'

theorem quantaBinds_none {quanta' : Option ValueExpr} :
    QuantaBinds context none quanta' ↔ some defaultQuanta = quanta' := by
  have bound (found : ValueExpr) :
      defaultQuanta.bind context = .ok found ↔ defaultQuanta = found := pure_eq_ok
  simp [QuantaBinds, rel_some_iff, bound]

theorem quantaBinds_some {quanta : ValueExpr} {quanta' : Option ValueExpr} :
    QuantaBinds context (some quanta) quanta' ↔
      ∃ found, quanta.bind context = .ok found ∧ some found = quanta' := by
  simp [QuantaBinds, rel_some_iff]

theorem exists_of_quantaBinds {quanta quanta' : Option ValueExpr}
    (binds : QuantaBinds context quanta quanta') :
    ∃ found, quanta' = some found ∧
      (found = defaultQuanta ∨ ∃ node, quanta = some node ∧ node.bind context = .ok found) := by
  cases quanta with
  | none => exact ⟨_, (quantaBinds_none.1 binds).symm, .inl rfl⟩
  | some node =>
    obtain ⟨found, bound, rfl⟩ := quantaBinds_some.1 binds
    exact ⟨found, rfl, .inr ⟨node, rfl, bound⟩⟩

/-- What binding does to an aggregation; the condition and the quanta are bound in its scope. -/
theorem aggregation_iff {op : AggregationOp} {count quanta : Option ValueExpr}
    {target : ValueExpr} {condition : Option BoolExpr} {scope : Option String}
    {scopePath : Option Path} {node' : ValueExpr} :
    (ValueExpr.aggregation span op count target condition scope quanta scopePath).bind
        context = .ok node' ↔
      ∃ path count' target' condition' quanta',
        relation context (scope.getD context.symbols.root.dotted) span = .ok path ∧
        Option.Rel (fun node node' => node.bind context = .ok node') count count' ∧
        target.bind context = .ok target' ∧
        Option.Rel (fun node node' => node.bind (context.inScope (some path)) = .ok node')
          condition condition' ∧
        QuantaBinds (context.inScope (some path)) quanta quanta' ∧
        node' = .aggregation span op count' target' condition'
          (some (scope.getD context.symbols.root.dotted)) quanta' (some path) := by
  rcases count with _ | count <;> rcases condition with _ | condition <;>
    rcases quanta with _ | quanta <;>
    simp only [ValueExpr.bind, bind_eq_ok, map_eq_ok, pure_eq_ok, Stopped.within_eq_ok,
      Stopped.check_eq_ok, quantaBinds_none, quantaBinds_some, rel_none_iff, rel_some_iff]
  all_goals
    constructor
    · rintro ⟨path, found, count', counted, target', only, condition', met, quanta', lasting, rfl⟩
      exact ⟨path, count', target', condition', quanta', found, counted, only, met, lasting, rfl⟩
    · rintro ⟨path, count', target', condition', quanta', found, counted, only, met, lasting, rfl⟩
      exact ⟨path, found, count', counted, target', only, condition', met, quanta', lasting, rfl⟩

end Bind

/-! ### What binding leaves in a node -/

/-- What binding leaves in the node is there, and a step reference stands inside a funnel with
that step, and not inside the step. -/
def Expr.Bound (context : Context) : Expr → Prop
  | .bool (.boundary _ _ _ resolved) => ∃ path, resolved = some path ∧ path.isRelation = true
  | .bool (.stepReference _ step) =>
    ∃ steps sources, context.funnel? = some (steps, sources) ∧ step ∈ steps ∧
      context.step? ≠ some step
  | .value (.path _ _ resolved) => resolved.isSome = true
  | .value (.parameter _ _ type) => type.isSome = true
  | .value (.call _ _ arguments binding) =>
    ∃ known, binding = some known ∧ known.Complete context.schema.root arguments
  | .value (.aggregation _ _ _ _ _ scope quanta scopePath) =>
    scope.isSome = true ∧ quanta.isSome = true ∧
      ∃ path, scopePath = some path ∧ path.isRelation = true
  | _ => True

namespace Expr

variable {context : Context} {source expr : Expr}

theorem bound_of_isPlain (plain : expr.isPlain = true) : expr.Bound context := by
  cases expr with
  | bool node => cases node <;> trivial
  | value node => cases node <;> trivial

theorem resolved_of_isPlain {root : Path} (plain : expr.isPlain = true) : expr.Resolved root := by
  cases expr with
  | bool node => cases node <;> trivial
  | value node => cases node <;> trivial

theorem Bound.resolved (bound : expr.Bound context) : expr.Resolved context.schema.root := by
  cases expr with
  | bool node => cases node <;> trivial
  | value node =>
    cases node
    case path => exact bound
    case parameter => exact bound
    case call =>
      obtain ⟨known, isKnown, complete⟩ := bound
      exact ⟨known, isKnown, complete.toFits⟩
    case aggregation => exact bound.2.2
    all_goals trivial

end Expr

/-- The contexts of a node and of its children differ in their scopes only. -/
structure Context.SamePlace (context inner : Context) : Prop where
  schema : inner.schema = context.schema
  settings : inner.settings = context.settings
  frames : inner.frames = context.frames

namespace Context.SamePlace

variable {context : Context}

theorem refl : context.SamePlace context := ⟨rfl, rfl, rfl⟩

theorem inScope {root : Option Path} : context.SamePlace (context.inScope root) := ⟨rfl, rfl, rfl⟩

end Context.SamePlace

/-- A child of a node is bound in the context of the node, or in a scope of its own there. -/
inductive Context.Surrounds (context : Context) : Context → Prop where
  | here : Surrounds context context
  | inScope {root : Option Path} : Surrounds context (context.inScope root)

theorem Context.Surrounds.samePlace {context inner : Context}
    (surrounds : context.Surrounds inner) : context.SamePlace inner := by
  cases surrounds with
  | here => exact .refl
  | inScope => exact .inScope

namespace Expr.BindsIn

variable {context : Context} {source expr : Expr}

private theorem of_values {nodes nodes' : List ValueExpr}
    (bound : List.Forall₂ (fun node node' => node.bind context = .ok node') nodes nodes')
    {child' : Expr} (member : child' ∈ nodes'.map .value) :
    ∃ child ∈ nodes.map .value, BindsIn context child child' := by
  obtain ⟨node', listed, rfl⟩ := List.mem_map.1 member
  obtain ⟨node, listed, bound⟩ := exists_of_mem_right bound listed
  exact ⟨.value node, List.mem_map_of_mem listed, .value bound⟩

/-- The children of the node are bound in its place, or literals that binding put there. -/
private def Below (context : Context) (source expr : Expr) : Prop :=
  ∀ child' ∈ expr.children, child'.isLiteral = true ∨
    ∃ child ∈ source.children, ∃ inner, context.Surrounds inner ∧ BindsIn inner child child'

private theorem inversion_call {span : Span} {name : String} {arguments : List ValueExpr}
    {binding : Option Binding} {node' : ValueExpr}
    (bound : (ValueExpr.call span name arguments binding).bind context = .ok node') :
    (Expr.value node').Bound context ∧
      Below context (.value (.call span name arguments binding)) (.value node') := by
  obtain ⟨known, found, state⟩ := Bind.call_iff.1 bound
  have accepted := Bind.accepts_of_function found
  rcases state with ⟨state, unbound, rfl⟩ | ⟨unbound, arguments', state, all, found, rfl⟩
  · obtain ⟨complete, span, text, rfl⟩ := Bind.complete_of_unbound accepted unbound
    refine ⟨⟨_, rfl, complete⟩, fun child' member => .inl ?_⟩
    obtain rfl := List.mem_singleton.1 member
    rfl
  · have complete := Bind.complete_of_bound accepted unbound all.length_eq found
    refine ⟨⟨_, rfl, complete⟩, fun child' member => .inr ?_⟩
    obtain ⟨child, listed, binds⟩ := of_values all member
    exact ⟨child, listed, context, .here, binds⟩

private theorem inversion_aggregation {span : Span} {op : AggregationOp}
    {count quanta : Option ValueExpr} {target : ValueExpr} {condition : Option BoolExpr}
    {scope : Option String} {scopePath : Option Path} {node' : ValueExpr}
    (bound : (ValueExpr.aggregation span op count target condition scope quanta scopePath).bind
      context = .ok node') :
    (Expr.value node').Bound context ∧
      Below context (.value (.aggregation span op count target condition scope quanta scopePath))
        (.value node') := by
  obtain ⟨path, count', target', condition', quanta', found, counted, only, met, lasting, rfl⟩ :=
    Bind.aggregation_iff.1 bound
  obtain ⟨quanta', rfl, filled⟩ := Bind.exists_of_quantaBinds lasting
  refine ⟨⟨rfl, rfl, path, rfl, Bind.isRelation_of_relation found⟩, fun child' member => ?_⟩
  simp only [children, ValueExpr.children, List.mem_append, List.mem_cons, List.mem_map,
    Option.mem_toList, Option.some.injEq] at member ⊢
  rcases member with (⟨node', rfl, rfl⟩ | rfl | ⟨node', rfl, rfl⟩) | ⟨node', rfl, rfl⟩
  · obtain ⟨node, rfl, binds⟩ := exists_of_rel_some counted
    exact .inr ⟨_, .inl (.inl ⟨node, rfl, rfl⟩), context, .here, .value binds⟩
  · exact .inr ⟨_, .inl (.inr (.inl rfl)), context, .here, .value only⟩
  · obtain ⟨node, rfl, binds⟩ := exists_of_rel_some met
    exact .inr ⟨_, .inl (.inr (.inr ⟨node, rfl, rfl⟩)), _, .inScope, .bool binds⟩
  · rcases filled with rfl | ⟨node, rfl, binds⟩
    · exact .inl rfl
    · exact .inr ⟨_, .inr ⟨node, rfl, rfl⟩, _, .inScope, .value binds⟩

/-- What binding does to a node. -/
theorem inversion (binds : BindsIn context source expr) :
    expr.Bound context ∧ ∀ child' ∈ expr.children, child'.isLiteral = true ∨
      ∃ child ∈ source.children, ∃ inner, context.Surrounds inner ∧ BindsIn inner child child' := by
  by_cases plain : source.isPlain = true
  · have same := (sameNode_iff plain).1 binds
    refine ⟨bound_of_isPlain (same.isPlain_eq.trans plain), fun child' member => .inr ?_⟩
    obtain ⟨child, listed, binds⟩ := same.exists_child_of_isPlain plain child' member
    exact ⟨child, listed, context, .here, binds⟩
  cases binds with
  | @bool node node' bound =>
    cases node <;> first | exact absurd rfl plain | skip
    case boundary =>
      simp only [BoolExpr.bind, bind_eq_ok, Stopped.check_eq_ok, pure_eq_ok] at bound
      obtain ⟨path, found, rfl⟩ := bound
      exact ⟨⟨path, rfl, Bind.isRelation_of_relation found⟩, List.forall_mem_nil _⟩
    case stepReference =>
      simp only [BoolExpr.bind, bind_eq_ok, Stopped.check_eq_ok, pure_eq_ok] at bound
      obtain ⟨_, allowed, rfl⟩ := bound
      exact ⟨Bind.checkStep_eq_ok.1 allowed, List.forall_mem_nil _⟩
  | @value node node' bound =>
    cases node <;> first | exact absurd rfl plain | skip
    case path =>
      simp only [ValueExpr.bind, bind_eq_ok, pure_eq_ok] at bound
      obtain ⟨path, _, rfl⟩ := bound
      exact ⟨rfl, List.forall_mem_nil _⟩
    case parameter =>
      simp only [ValueExpr.bind, bind_eq_ok, pure_eq_ok] at bound
      obtain ⟨type, _, rfl⟩ := bound
      exact ⟨rfl, List.forall_mem_nil _⟩
    case quantum =>
      simp only [ValueExpr.bind, bind_eq_ok, pure_eq_ok, Stopped.within_eq_ok] at bound
      obtain ⟨operand, only, rfl⟩ := bound
      refine ⟨trivial, List.forall_mem_singleton.2 (.inr ?_)⟩
      exact ⟨_, List.mem_singleton_self _, context, .here, .value only⟩
    case call => exact inversion_call bound
    case aggregation => exact inversion_aggregation bound

end Expr.BindsIn

theorem Expr.BindsTo.inversion {root : Path} {source expr : Expr}
    (bound : BindsTo root source expr) :
    expr.Resolved root ∧ ∀ child' ∈ expr.children,
      child'.isLiteral = true ∨ ∃ child ∈ source.children, BindsTo root child child' := by
  obtain ⟨context, rfl, bound⟩ := bound
  obtain ⟨here, below⟩ := (Expr.BindsIn.iff_bind.2 bound).inversion
  refine ⟨here.resolved, fun child' member => (below child' member).imp_right ?_⟩
  rintro ⟨child, listed, inner, surrounds, binds⟩
  exact ⟨child, listed, inner, congrArg Schema.root surrounds.samePlace.schema,
    Expr.BindsIn.iff_bind.1 binds⟩

/-- In a bound expression every name has its meaning and every call fits its function. -/
theorem Expr.BindsTo.resolved {root : Path} {source expr : Expr}
    (bound : BindsTo root source expr) : expr.Everywhere (Resolved root) := by
  induction source using Expr.byChildren generalizing expr with
  | node source ih =>
    obtain ⟨here, children⟩ := bound.inversion
    refine .node here fun child' member => ?_
    rcases children child' member with literal | ⟨child, member, bound⟩
    · exact .of_isLiteral literal (resolved_of_isLiteral literal)
    · exact ih child member bound

/-! ### Optimization -/

theorem Optimize.exists_about {function : Function}
    (hidden : Optimize.optimizesArguments function = false) :
    ∃ reference, function = .about reference := by
  cases function <;>
    simp only [Optimize.optimizesArguments, Bool.true_eq_false] at hidden
  exact ⟨_, rfl⟩

/-- A call keeps fitting its function when its arguments are optimized: paths and names are
optimized to themselves. -/
theorem Binding.Fits.of_optimized {fold : Bool} {root : Path} {binding : Binding}
    {arguments arguments' : List ValueExpr} (fits : binding.Fits root arguments)
    (all : List.Forall₂ (fun node node' => Optimized fold (.value node) (.value node'))
      arguments arguments') : binding.Fits root arguments' := by
  refine ⟨all.length_eq ▸ fits.accepted, fun described => ?_, fun reference asks => ?_⟩
  · obtain ⟨span, name, path, rfl⟩ := fits.described described
    exact ⟨span, name, path, eq_singleton all fun _ keeps =>
      (Except.ok.inj (Optimized.value_iff.1 keeps)).symm⟩
  · obtain ⟨span, name, rfl, referent⟩ := fits.asked reference asks
    exact ⟨span, name, eq_singleton all fun _ keeps =>
      (Except.ok.inj (Optimized.value_iff.1 keeps)).symm, referent⟩

namespace Optimized

variable {fold : Bool} {root : Path} {expr expr' mid : Expr}

private theorem resolved_node (same : SameNode (Optimized fold) expr mid)
    (resolved : expr.Resolved root) : mid.Resolved root := by
  cases same
  case leaf => exact resolved
  case reference => exact resolved
  case aggregation => exact resolved
  case call all =>
    obtain ⟨known, isKnown, fits⟩ := resolved
    obtain rfl := Option.some.inj isKnown
    exact ⟨_, rfl, fits.of_optimized all⟩
  all_goals trivial

/-- Optimization keeps an expression resolved. -/
theorem resolved (optimized : Optimized fold expr expr')
    (resolves : expr.Everywhere (Expr.Resolved root)) :
    expr'.Everywhere (Expr.Resolved root) :=
  optimized.everywhere resolves (fun same here => resolved_node same here)
    fun _ => Expr.resolved_of_isLiteral

end Optimized

end EventQuery
