import EventQuery.Proofs.Resolution
import EventQuery.Statement.Bind

/-!
Binding asks the names only for what they mean. Contexts in which every name means the same
give the same bound trees, whatever the order in which the names were defined and whatever
references were recorded before.
-/
namespace EventQuery

open Outcome

/-! ### Names with the same meanings -/

/-- Every name means the same, here and around; so it still does after more definitions. -/
structure Symbols.Agree (symbols symbols' : Symbols) : Prop where
  root : symbols'.root = symbols.root
  here : ∀ name, symbols'.current.lookup? name = symbols.current.lookup? name
  around : ∀ name, symbols'.outer.findSome? (fun scope => scope.lookup? name) =
    symbols.outer.findSome? fun scope => scope.lookup? name

namespace Scope

variable {scope : Scope} {name : String} {definition : Definition}

theorem define?_eq_some {scope' : Scope} :
    scope.define? name definition = some scope' ↔ scope.lookup? name = none ∧
      { scope with definitions := scope.definitions ++ [(name, definition)] } = scope' := by
  cases known : scope.lookup? name <;> simp [define?, known]

theorem lookup?_snoc (other : String) :
    ({ scope with definitions := scope.definitions ++ [(name, definition)] } : Scope).lookup? other =
      (scope.lookup? other).or ([(name, definition)].lookup other) := List.lookup_append

end Scope

namespace Symbols.Agree

variable {symbols symbols' : Symbols}

theorem symm (agree : symbols.Agree symbols') : symbols'.Agree symbols :=
  ⟨agree.root.symm, fun name => (agree.here name).symm, fun name => (agree.around name).symm⟩

theorem lookup (agree : symbols.Agree symbols') (name : String) :
    symbols'.lookup? name = symbols.lookup? name := by
  simp only [lookup?, scopes, List.findSome?_cons, agree.here name, agree.around name]

theorem push (agree : symbols.Agree symbols') (root : Option Path) :
    (symbols.push root).Agree (symbols'.push root) where
  root := congrArg root.getD agree.root
  here _ := rfl
  around := agree.lookup

theorem define? (agree : symbols.Agree symbols') {name : String} {definition : Definition}
    {defined : Symbols} (defines : symbols.define? name definition = some defined) :
    ∃ defined', symbols'.define? name definition = some defined' ∧ defined.Agree defined' := by
  obtain ⟨scope, extended, rfl⟩ := Option.map_eq_some_iff.1 defines
  obtain ⟨fresh, rfl⟩ := Scope.define?_eq_some.1 extended
  refine ⟨_, Option.map_eq_some_iff.2 ⟨_, Scope.define?_eq_some.2 ⟨?_, rfl⟩, rfl⟩, ?_⟩
  · exact (agree.here name).trans fresh
  · refine ⟨agree.root, fun other => ?_, agree.around⟩
    simp only [Scope.lookup?_snoc, agree.here other]

end Symbols.Agree

/-- The contexts differ at most in how their names came to their meanings. -/
structure Context.Agree (context context' : Context) : Prop where
  schema : context'.schema = context.schema
  settings : context'.settings = context.settings
  frames : context'.frames = context.frames
  symbols : context.symbols.Agree context'.symbols

namespace Context.Agree

variable {context context' : Context}

theorem symm (agree : context.Agree context') : context'.Agree context :=
  ⟨agree.schema.symm, agree.settings.symm, agree.frames.symm, agree.symbols.symm⟩

theorem enter (agree : context.Agree context') (frame : Frame) :
    (context.enter frame).Agree (context'.enter frame) :=
  ⟨agree.schema, agree.settings, congrArg (frame :: ·) agree.frames, agree.symbols⟩

theorem inScope (agree : context.Agree context') (root : Option Path) :
    (context.inScope root).Agree (context'.inScope root) :=
  ⟨agree.schema, agree.settings, agree.frames, agree.symbols.push root⟩

theorem lookup (agree : context.Agree context') (name : String) :
    context'.symbols.lookup? name = context.symbols.lookup? name := agree.symbols.lookup name

theorem statement? (agree : context.Agree context') : context'.statement? = context.statement? := by
  simp only [Context.statement?, agree.frames]

theorem funnel? (agree : context.Agree context') : context'.funnel? = context.funnel? := by
  simp only [Context.funnel?, agree.frames]

theorem step? (agree : context.Agree context') : context'.step? = context.step? := by
  simp only [Context.step?, agree.frames]

end Context.Agree

/-! ### Names in expressions -/

namespace Bind

variable {context context' : Context} {span : Span} {name : String}

theorem path_of_agree (agree : context.Agree context') :
    path context' name span = path context name span := by
  simp only [path, agree.schema]

theorem relation_of_agree (agree : context.Agree context') :
    relation context' name span = relation context name span := by
  simp only [relation, path_of_agree agree]

theorem parameterType_of_agree (agree : context.Agree context') :
    Refines Eq (parameterType context name span) (parameterType context' name span) := by
  unfold parameterType
  rw [agree.lookup]
  split
  case h_1 => exact .rfl fun _ => rfl
  case h_2 => exact .error

theorem checkStep_of_agree {step : Int64} (agree : context.Agree context') :
    checkStep context' span step = checkStep context span step := by
  simp only [checkStep, agree.funnel?, agree.step?]

theorem function_of_agree {count : Nat} (agree : context.Agree context') :
    Refines Eq (function context span name count) (function context' span name count) := by
  unfold function
  rw [agree.lookup]
  dsimp only
  split
  case h_1 => exact .rfl fun _ => rfl
  case h_2 => exact .error
  case h_3 => exact .error

theorem referent_of_agree {reference : Reference} {argument : ValueExpr}
    (agree : context.Agree context') :
    Refines Eq (referent context name reference argument)
      (referent context' name reference argument) := by
  unfold referent
  dsimp only
  rw [agree.statement?, agree.schema]
  split
  case h_2 => exact .error
  case h_1 text _ =>
    rw [agree.lookup]
    split
    case isTrue => exact .error
    case isFalse =>
      split
      case h_1 => exact .rfl fun _ => rfl
      case h_2 => exact .error

theorem callState_of_agree {known : Function} {nodes : List ValueExpr}
    (agree : context.Agree context') :
    callState context' name known nodes = callState context name known nodes := by
  unfold callState
  rw [agree.settings]

theorem unboundState?_of_agree {known : Function} {nodes : List ValueExpr} {state : CallState}
    (agree : context.Agree context')
    (unbound : unboundState? context name known nodes = some (.ok state)) :
    unboundState? context' name known nodes = some (.ok state) := by
  unfold unboundState? at unbound ⊢
  split at unbound
  case h_1 =>
    obtain ⟨_, found, rfl⟩ := referent_of_agree agree _ (Option.some.inj unbound)
    exact congrArg some found
  case h_2 => cases unbound

/-- Whether a call binds its arguments is a matter of its function. -/
theorem unboundState?_eq_none {known : Function} {nodes : List ValueExpr}
    (unbound : unboundState? context name known nodes = none) :
    unboundState? context' name known nodes = none := by
  unfold unboundState? at unbound ⊢
  split at unbound
  case h_1 => cases unbound
  case h_2 => rfl

theorem QuantaBinds.of_agree {quanta quanta' : Option ValueExpr}
    (each : ∀ node ∈ quanta, ∀ {node'}, node.bind context = .ok node' →
      node.bind context' = .ok node')
    (binds : QuantaBinds context quanta quanta') : QuantaBinds context' quanta quanta' := by
  cases quanta with
  | none => exact quantaBinds_none.2 (quantaBinds_none.1 binds)
  | some node =>
    obtain ⟨found, bound, same⟩ := quantaBinds_some.1 binds
    exact quantaBinds_some.2 ⟨found, each node rfl bound, same⟩

end Bind

namespace Expr.BindsIn

/-- The bound forms of the expression are the same in contexts that agree. -/
private def Carries (expr : Expr) : Prop :=
  ∀ {context context' : Context} {expr' : Expr}, context.Agree context' →
    BindsIn context expr expr' → BindsIn context' expr expr'

variable {context context' : Context} {source expr : Expr} {span : Span}

private theorem carries_call {name : String} {arguments : List ValueExpr}
    {binding : Option Binding} (ih : ∀ node ∈ arguments, Carries (.value node)) :
    Carries (.value (.call span name arguments binding)) := by
  intro context context' expr' agree binds
  obtain ⟨node', bound, rfl⟩ := exists_value.1 binds
  obtain ⟨known, found, state⟩ := Bind.call_iff.1 bound
  obtain ⟨_, found', rfl⟩ := Bind.function_of_agree agree _ found
  refine .value (Bind.call_iff.2 ⟨known, found', ?_⟩)
  rcases state with ⟨state, unbound, rfl⟩ | ⟨unbound, arguments', state, all, stated, rfl⟩
  · exact .inl ⟨state, Bind.unboundState?_of_agree agree unbound, rfl⟩
  · refine .inr ⟨Bind.unboundState?_eq_none unbound, arguments', state, ?_, ?_, rfl⟩
    · exact forall₂_imp_of_mem
        (fun node listed _ bound => value_iff.1 (ih node listed agree (.value bound))) all
    · rwa [Bind.callState_of_agree agree]

private theorem carries_aggregation {op : AggregationOp} {count quanta : Option ValueExpr}
    {target : ValueExpr} {condition : Option BoolExpr} {scope : Option String}
    {scopePath : Option Path} (ofCount : ∀ node ∈ count, Carries (.value node))
    (ofTarget : Carries (.value target)) (ofCondition : ∀ node ∈ condition, Carries (.bool node))
    (ofQuanta : ∀ node ∈ quanta, Carries (.value node)) :
    Carries (.value (.aggregation span op count target condition scope quanta scopePath)) := by
  intro context context' expr' agree binds
  obtain ⟨node', bound, rfl⟩ := exists_value.1 binds
  obtain ⟨path, count', target', condition', quanta', found, counted, only, met, lasting, rfl⟩ :=
    Bind.aggregation_iff.1 bound
  have root : context'.symbols.root = context.symbols.root := agree.symbols.root
  have inner := agree.inScope (some path)
  refine .value (Bind.aggregation_iff.2
    ⟨path, count', target', condition', quanta', ?_, ?_, ?_, ?_, ?_, by rw [root]⟩)
  · rwa [root, Bind.relation_of_agree agree]
  · exact rel_imp_of_mem
      (fun node given _ bound => value_iff.1 (ofCount node given agree (.value bound))) counted
  · exact value_iff.1 (ofTarget agree (.value only))
  · exact rel_imp_of_mem
      (fun node given _ bound => bool_iff.1 (ofCondition node given inner (.bool bound))) met
  · exact lasting.of_agree fun node given _ bound =>
      value_iff.1 (ofQuanta node given inner (.value bound))

private theorem carries (source : Expr) : Carries source := by
  induction source using Expr.byChildren with
  | node source ih =>
    intro context context' expr agree binds
    by_cases plain : source.isPlain = true
    · rw [sameNode_iff plain] at binds ⊢
      exact binds.imp fun child member child' binds => ih child member agree binds
    cases source with
    | bool node =>
      obtain ⟨node', bound, rfl⟩ := exists_bool.1 binds
      refine .bool ?_
      cases node <;> first | exact absurd rfl plain | skip
      case boundary => simpa [BoolExpr.bind, Bind.relation_of_agree agree] using bound
      case stepReference => simpa [BoolExpr.bind, Bind.checkStep_of_agree agree] using bound
    | value node =>
      cases node <;> first | exact absurd rfl plain | skip
      case path =>
        obtain ⟨node', bound, rfl⟩ := exists_value.1 binds
        refine .value ?_
        simpa [ValueExpr.bind, Bind.path_of_agree agree] using bound
      case parameter =>
        obtain ⟨node', bound, rfl⟩ := exists_value.1 binds
        simp only [ValueExpr.bind, bind_eq_ok, pure_eq_ok, Stopped.check_eq_ok] at bound
        obtain ⟨type, found, rfl⟩ := bound
        obtain ⟨_, found', rfl⟩ := Bind.parameterType_of_agree agree _ found
        refine .value ?_
        simp [ValueExpr.bind, found']
      case quantum operand _ _ =>
        obtain ⟨node', bound, rfl⟩ := exists_value.1 binds
        simp only [ValueExpr.bind, bind_eq_ok, pure_eq_ok, Stopped.within_eq_ok] at bound
        obtain ⟨operand', only, rfl⟩ := bound
        have only' := value_iff.1 (ih _ (List.mem_singleton_self _) agree (.value only))
        refine .value ?_
        simp [ValueExpr.bind, only', agree.settings]
      case call arguments _ =>
        exact carries_call (fun node listed => ih _ (List.mem_map_of_mem listed)) agree binds
      case aggregation =>
        refine carries_aggregation (fun node given => ih _ ?_) (ih _ ?_) (fun node given => ih _ ?_)
          (fun node given => ih _ ?_) agree binds
        all_goals simp_all [children, ValueExpr.children]

/-- Contexts in which every name means the same give the same bound expression. -/
theorem of_agree (agree : context.Agree context') (binds : BindsIn context source expr) :
    BindsIn context' source expr := carries source agree binds

end Expr.BindsIn

/-! ### Names in statements -/

namespace Bind

open Stopped (forget)

variable {context context' : Context}

private theorem value_of_agree (agree : context.Agree context') (node : ValueExpr) :
    Refines Eq (forget (node.bind context)) (forget (node.bind context')) := by
  intro node' bound
  have binds := Expr.BindsIn.value (Stopped.forget_eq_ok.1 bound)
  exact ⟨node', Stopped.forget_eq_ok.2 (Expr.BindsIn.value_iff.1 (binds.of_agree agree)), rfl⟩

private theorem bool_of_agree (agree : context.Agree context') (node : BoolExpr) :
    Refines Eq (forget (node.bind context)) (forget (node.bind context')) := by
  intro node' bound
  have binds := Expr.BindsIn.bool (Stopped.forget_eq_ok.1 bound)
  exact ⟨node', Stopped.forget_eq_ok.2 (Expr.BindsIn.bool_iff.1 (binds.of_agree agree)), rfl⟩

private theorem expr_of_agree (agree : context.Agree context') (expr : Expr) :
    Refines Eq (forget (expr.bind context)) (forget (expr.bind context')) := by
  intro expr' bound
  have binds := Expr.BindsIn.iff_bind.2 (Stopped.forget_eq_ok.1 bound)
  exact ⟨expr', Stopped.forget_eq_ok.2 (Expr.BindsIn.iff_bind.1 (binds.of_agree agree)), rfl⟩

private theorem option_of_agree (agree : context.Agree context') (node : Option ValueExpr) :
    Refines Eq (option context node) (option context' node) :=
  .option (value_of_agree agree)

private theorem query_of_agree (agree : context.Agree context') (known : Query) :
    Refines Eq (query context known) (query context' known) := by
  refine .bind_eq (.mapM fun selection _ => ?_) fun selections => ?_
  · exact .bind_eq (expr_of_agree agree _) fun _ => .rfl fun _ => rfl
  refine .bind_eq (.option (bool_of_agree agree)) fun condition => ?_
  refine .bind_eq (.mapM fun key _ => value_of_agree agree key) fun groupBy => ?_
  exact .bind_eq (option_of_agree agree _) fun _ => .rfl fun _ => rfl

private theorem view_of_agree (agree : context.Agree context') (known : View) :
    Refines Eq (view context known) (view context' known) :=
  .bind_eq (bool_of_agree agree _) fun _ => .rfl fun _ => rfl

private theorem sources_of_agree {names : List String} {span : Span}
    (agree : context.Agree context') :
    sources context' names span = sources context names span := by
  simp only [sources, relation_of_agree agree]

private theorem timing_of_agree {condition : BoolExpr} {paths : List Path} {span : Span}
    (agree : context.Agree context') :
    timing context' condition paths span = timing context condition paths span := by
  simp only [timing, agree.schema]

private theorem trigger_of_agree (agree : context.Agree context') (known : Trigger)
    (condition : BoolExpr) (paths : List Path) (span : Span) :
    Refines Eq (trigger context known condition paths span)
      (trigger context' known condition paths span) := by
  refine .bind_eq (option_of_agree agree _) fun given => ?_
  refine .bind_eq (option_of_agree agree _) fun within => ?_
  refine .bind_eq (option_of_agree agree _) fun after => ?_
  rw [timing_of_agree agree]
  exact .rfl fun _ => rfl

private theorem step_of_agree (agree : context.Agree context') (paths : List Path) (known : Step) :
    Refines Eq (step context paths known) (step context' paths known) := by
  have inside := agree.enter (.step known.id)
  refine .bind_eq (bool_of_agree inside _) fun condition => ?_
  refine .bind_eq (.option fun trigger => ?_) fun _ => .rfl fun _ => rfl
  exact trigger_of_agree inside trigger condition paths _

private theorem funnel_of_agree (agree : context.Agree context') (known : Funnel) :
    Refines Eq (funnel context known) (funnel context' known) := by
  unfold funnel
  rw [sources_of_agree agree]
  refine .bind_eq (.rfl fun _ => rfl) fun paths => ?_
  refine .bind_eq (value_of_agree agree _) fun within => ?_
  refine .bind_eq (option_of_agree agree _) fun limit => ?_
  refine .bind_eq (.mapM fun known _ => ?_) fun _ => .rfl fun _ => rfl
  exact step_of_agree (agree.enter _) paths known

private theorem segment_of_agree (agree : context.Agree context') (known : Segment) :
    Refines Eq (segment context known) (segment context' known) := by
  unfold segment
  rw [sources_of_agree agree]
  refine .bind_eq (.rfl fun _ => rfl) fun paths => ?_
  refine .bind_eq (.mapM fun definition _ => ?_) fun _ => .rfl fun _ => rfl
  exact .bind_eq (bool_of_agree agree _) fun _ => .rfl fun _ => rfl

/-- Parameters keep what agreed before, as they hide the same names. -/
private theorem parameters_of_agree {symbols symbols' : Symbols} (agree : symbols.Agree symbols')
    (declared : List Parameter) :
    Refines Symbols.Agree (parameters symbols declared) (parameters symbols' declared) := by
  induction declared generalizing symbols symbols' with
  | nil => exact .ok agree
  | cons first rest ih =>
    unfold parameters
    cases defines : symbols.define? first.name (.parameter first.type first.default) with
    | none => exact .error
    | some defined =>
      obtain ⟨defined', defines', agree⟩ := agree.define? defines
      rw [defines']
      exact ih agree

/-- Contexts in which every name means the same give the same bound statement. -/
theorem statement_of_agree (agree : context.Agree context') {known bound : Statement}
    (binds : statement context known = .ok bound) : statement context' known = .ok bound := by
  have refines : Refines Eq (statement context known) (statement context' known) := by
    have inside := (agree.enter (.statement known.name?)).inScope none
    refine .bind (parameters_of_agree inside.symbols _) fun symbols symbols' agree => ?_
    have inside : Context.Agree { (context.enter (.statement known.name?)).inScope none with symbols }
        { (context'.enter (.statement known.name?)).inScope none with symbols := symbols' } :=
      ⟨inside.schema, inside.settings, inside.frames, agree⟩
    cases known with
    | query known => exact .bind_eq (query_of_agree inside known) fun _ => .rfl fun _ => rfl
    | view known => exact .bind_eq (view_of_agree inside known) fun _ => .rfl fun _ => rfl
    | funnel known => exact .bind_eq (funnel_of_agree inside known) fun _ => .rfl fun _ => rfl
    | segment known => exact .bind_eq (segment_of_agree inside known) fun _ => .rfl fun _ => rfl
  obtain ⟨_, binds', rfl⟩ := refines bound binds
  exact binds'

end Bind

end EventQuery
