import EventQuery.Proofs.Agreement
import EventQuery.Proofs.FoldingOrder
import EventQuery.Proofs.PointPreservation

/-!
Values that are known at compile time, in the passes before optimization. They hold nothing but
constants, operators and calls, so they are bound in the same way wherever they stand, and
compiled by themselves they become the constant that their validated form reduces to.
-/
namespace EventQuery

open Outcome

/-! ### Binding -/

/-- The settings are the same, and calls inside mean what they mean outside. -/
structure Context.Encloses (outer inner : Context) : Prop where
  settings : inner.settings = outer.settings
  calls : ∀ name function, inner.symbols.lookup? name = some (.function function) →
    outer.symbols.lookup? name = some (.function function)

namespace Context.Encloses

variable {outer inner : Context}

theorem refl : outer.Encloses outer := ⟨rfl, fun _ _ => id⟩

theorem enter (encloses : outer.Encloses inner) (frame : Frame) :
    outer.Encloses (inner.enter frame) := ⟨encloses.settings, encloses.calls⟩

theorem inScope (encloses : outer.Encloses inner) (root : Option Path) :
    outer.Encloses (inner.inScope root) := ⟨encloses.settings, encloses.calls⟩

end Context.Encloses

theorem Bind.function_eq_ok {context : Context} {span : Span} {name : String} {count : Nat}
    {known : Function} :
    function context span name count = .ok known ↔
      context.symbols.lookup? name = some (.function known) ∧
        known.arity.accepts count = true := by
  unfold function
  dsimp only
  cases context.symbols.lookup? name with
  | none => simp
  | some definition =>
    cases definition with
    | function found =>
      by_cases accepted : found.arity.accepts count = true <;>
        simp only [accepted, pure_eq_ok, pure_bind, if_true, Option.some.injEq,
          Definition.function.injEq, throw_eq_ok, Bool.false_eq_true, if_false, false_iff, not_and]
      · constructor
        · rintro rfl
          exact ⟨rfl, accepted⟩
        · exact And.left
      · rintro rfl
        exact accepted
    | _ => simp

/-- A value that is known is bound in the same way outside. -/
theorem Expr.BindsIn.of_known {outer inner : Context} (encloses : outer.Encloses inner)
    {source : Expr} {node : ValueExpr} (binds : BindsIn inner source (.value node))
    (known : node.isConstant = true) : BindsIn outer source (.value node) := by
  generalize same : Expr.value node = expr at binds
  induction expr using Expr.byChildren generalizing source node with
  | node expr ih =>
    subst same
    have ofChild (child' : Expr) (member : child' ∈ (Expr.value node).children) (child : Expr)
        (binds : BindsIn inner child child') : BindsIn outer child child' := by
      obtain ⟨knownChild, node', rfl⟩ := ValueExpr.isConstant_child known member
      exact ih _ member knownChild rfl binds
    by_cases plain : source.isPlain = true
    · rw [sameNode_iff plain] at binds ⊢
      exact (binds.symm.imp ofChild).symm
    cases binds with
    | @value source _ bound =>
      cases source <;> first | exact absurd rfl plain | skip
      case path =>
        simp only [ValueExpr.bind, bind_eq_ok, pure_eq_ok] at bound
        obtain ⟨_, _, rfl⟩ := bound
        cases known
      case parameter =>
        simp only [ValueExpr.bind, bind_eq_ok, pure_eq_ok] at bound
        obtain ⟨_, _, rfl⟩ := bound
        cases known
      case quantum =>
        simp only [ValueExpr.bind, bind_eq_ok, pure_eq_ok, Stopped.within_eq_ok] at bound
        obtain ⟨operand', only, rfl⟩ := bound
        have only' := value_iff.1 (ofChild _ (List.mem_singleton_self _) _ (.value only))
        refine .value ?_
        simp [ValueExpr.bind, only', encloses.settings]
      case call =>
        obtain ⟨function, found, state⟩ := Bind.call_iff.1 bound
        obtain ⟨named, accepted⟩ := Bind.function_eq_ok.1 found
        refine .value (Bind.call_iff.2
          ⟨function, Bind.function_eq_ok.2 ⟨encloses.calls _ _ named, accepted⟩, ?_⟩)
        rcases state with ⟨state, unbound, rfl⟩ | ⟨unbound, arguments', state, all, stated, rfl⟩
        · unfold Bind.unboundState? at unbound
          split at unbound
          case h_1 => cases known
          case h_2 => cases unbound
        · refine .inr ⟨Bind.unboundState?_eq_none unbound, arguments', state, ?_, ?_, rfl⟩
          · refine (forall₂_imp_of_mem (fun node' listed node bound => ?_) all.flip).flip
            exact value_iff.1 (ofChild _ (List.mem_map_of_mem listed) _ (.value bound))
          · unfold Bind.callState at stated ⊢
            rwa [← encloses.settings]
      case aggregation =>
        obtain ⟨_, _, _, _, _, _, _, _, _, _, rfl⟩ := Bind.aggregation_iff.1 bound
        cases known

/-! ### Validation -/

/-- A node with the same children is the same node. -/
theorem SameNode.eq {expr expr' : Expr} (same : SameNode Eq expr expr') : expr = expr' := by
  have lists {nodes nodes' : List ValueExpr}
      (all : List.Forall₂ (fun node node' => Expr.value node = .value node') nodes nodes') :
      nodes = nodes' := by
    induction all with
    | nil => rfl
    | cons first _ ih => rw [Expr.value.inj first, ih]
  cases same
  case aggregation counted only met lasting =>
    cases counted <;> cases met <;> cases lasting <;> simp_all
  all_goals simp_all

namespace Validate

theorem call_eq_ok [ZoneTable] {span : Span} {name : String} {arguments : List ValueExpr}
    {binding : Binding}
    {node' : ValueExpr} (validates : validatesArguments binding.function = true) :
    (ValueExpr.call span name arguments (some binding)).validate = .ok node' ↔
      ∃ arguments' binding',
        List.Forall₂ (fun node node' => node.validate = .ok node') arguments arguments' ∧
        checkCall span name arguments' binding = .ok binding' ∧
        node' = .call span name arguments' (some binding') := by
  simp only [ValueExpr.validate, validates, if_true, bind_eq_ok, pure_eq_ok,
    Stopped.within_eq_ok, validateAll_eq_ok]
  constructor
  · rintro ⟨arguments', all, binding', found, rfl⟩
    exact ⟨arguments', binding', all, found, rfl⟩
  · rintro ⟨arguments', binding', all, found, rfl⟩
    exact ⟨arguments', all, binding', found, rfl⟩

/-- The functions of known calls have their arguments validated. -/
theorem validatesArguments_of_isConstantCall {function : Function} {known : List Bool}
    (constant : Reduce.isConstantCall function known = true) :
    validatesArguments function = true := by
  cases function <;> first | rfl | cases constant

/-- A call that names no time zone is left as it is. -/
theorem eq_of_checkCall_zoneless [ZoneTable] {span : Span} {name : String}
    {arguments : List ValueExpr}
    {binding binding' : Binding} (found : checkCall span name arguments binding = .ok binding')
    (zoneless : binding.function = .formatDatetime → arguments.length = 2) :
    binding' = binding := by
  by_cases formats : binding.function = .formatDatetime
  · obtain ⟨instant, format, rfl⟩ := List.length_eq_two.1 (zoneless formats)
    simp only [checkCall, formats, explicitZone, bind_eq_ok, pure_eq_ok, Stopped.check_eq_ok,
      Except.ok.injEq, exists_eq_left', List.getElem?_cons_succ, List.getElem?_cons_zero] at found
    obtain ⟨_, _, rfl⟩ := found
    rfl
  · exact eq_of_checkCall found formats

end Validate

/-! ### Reduction -/

namespace Reduce

variable {span : Span} {name : String} {nodes : List ValueExpr}

/-- All arguments of a call that passes its checks have constants, if the call has one. -/
theorem exists_of_callConstant [ZoneTable] {binding binding' : Binding} {value : Constant}
    (checked : Validate.checkCall span name nodes binding = .ok binding')
    (accepted : binding.function.arity.accepts nodes.length = true)
    (found : callConstant ⟨span, name, ValueExpr.arguments nodes⟩ binding' = .ok value)
    {index : Nat} {node : ValueExpr} (isNode : nodes[index]? = some node) :
    ∃ value, node.reduce = .ok value := by
  have same := Validate.checkCall_function checked
  rcases exists_or_unread_of_callConstant (same ▸ accepted) found isNode with reduces | unread
  · exact reduces
  -- The checks of a call read what its constant does not need.
  rw [same] at unread
  unfold Validate.checkCall at checked
  cases asked : binding.function <;>
    simp only [asked, Function.arity, Arity.accepts, unreadArguments, List.not_mem_nil]
      at unread accepted checked
  case formatDatetime =>
    obtain ⟨_, named, _⟩ := bind_eq_ok.1 checked
    have more := List.length_pos_of_mem unread
    obtain ⟨instant, format, zone, rfl⟩ := List.length_eq_three.1
      (show nodes.length = 3 by simp at accepted more; omega)
    obtain ⟨_, third, _⟩ := bind_eq_ok.1 (Stopped.check_eq_ok.1 named)
    obtain ⟨node', isNode', found⟩ := exists_of_constant third
    obtain rfl := List.mem_singleton.1 unread
    obtain rfl := Option.some.inj isNode'
    exact ⟨_, found⟩
  case split =>
    simp only [bind_eq_ok, pure_eq_ok, Stopped.check_eq_ok] at checked
    obtain ⟨_, ⟨_, tail, _⟩, _⟩ := checked
    cases nodes with
    | nil => cases unread
    | cons divided boundaries =>
      have listed : node ∈ boundaries := by
        dsimp only at unread
        split at unread
        · exact unread
        · cases unread
      obtain ⟨index, isBoundary⟩ := List.mem_iff_getElem?.1 listed
      exact exists_of_constantTail tail (by simpa using isBoundary)

end Reduce

/-! ### Time zones -/

namespace Expr

/-- The node does not name a time zone. -/
def NamesNoZone : Expr → Prop
  | .value (.quantum _ _ _ zone _) => zone = none
  | .value (.call _ _ arguments (some binding)) =>
    binding.function = .formatDatetime → arguments.length = 2
  | _ => True

end Expr

namespace Expr.ValidatesTo

variable {node node' : ValueExpr}

/-- A call is known by what its arguments are. -/
private theorem isConstant_call (span : Span) (name : String)
    {arguments arguments' : List ValueExpr} {binding binding' : Binding}
    (same : binding'.function = binding.function)
    (all : List.Forall₂ (fun node node' => node'.isConstant = true ↔ node.isConstant = true)
      arguments arguments') :
    (ValueExpr.call span name arguments' (some binding')).isConstant = true ↔
      (ValueExpr.call span name arguments (some binding)).isConstant = true := by
  have kept : SameNode (fun child child' => child'.isConstant = true ↔ child.isConstant = true)
      (.value (.call span name arguments (some binding)))
      (.value (.call span name arguments' (some binding))) := .call all
  have stays := kept.imp fun _ _ _ => Iff.mpr
  have stayed := kept.symm.imp fun _ _ _ => Iff.mp
  have moved := Iff.intro stayed.known stays.known
  simp only [Expr.isConstant, ValueExpr.isConstant] at moved ⊢
  rwa [same]

/-- Validation decides nothing about what is known. -/
theorem isConstant_iff [ZoneTable] {expr expr' : Expr} (validates : ValidatesTo expr expr') :
    expr'.isConstant = true ↔ expr.isConstant = true := by
  induction expr using Expr.byChildren generalizing expr' with
  | node expr ih =>
    by_cases plain : expr.isPlain = true
    · have same := ((sameNode_iff plain).1 validates).imp fun child member child' => ih child member
      have stays := same.imp fun _ _ _ => Iff.mpr
      have stayed := same.symm.imp fun _ _ _ => Iff.mp
      exact ⟨stayed.known, stays.known⟩
    cases validates with
    | @bool node node' valid =>
      cases node <;> first | exact absurd rfl plain | skip
      case boundary => cases valid; rfl
      case stepReference => cases valid; rfl
    | @value node node' valid =>
      cases node <;> first | exact absurd rfl plain | skip
      case path => cases valid; rfl
      case parameter => cases valid; rfl
      case quantum span taken operand zone _ =>
        rcases zone with _ | zone <;>
          simp only [ValueExpr.validate, bind_eq_ok, pure_eq_ok, Stopped.within_eq_ok] at valid
        · obtain ⟨operand', only, rfl⟩ := valid
          have inside := ih (.value operand) (List.mem_singleton_self _) (.value only)
          exact inside
        · obtain ⟨operand', only, _, _, rfl⟩ := valid
          have inside := ih (.value operand) (List.mem_singleton_self _) (.value only)
          exact inside
      case call span name arguments binding =>
        rcases binding with _ | binding
        · cases valid
        by_cases validated : Validate.validatesArguments binding.function = true
        · obtain ⟨arguments', binding', all, checked, rfl⟩ := (Validate.call_eq_ok validated).1 valid
          refine isConstant_call span name (Validate.checkCall_function checked) ?_
          exact forall₂_imp_of_mem
            (fun node listed node' valid => ih _ (List.mem_map_of_mem listed) (.value valid)) all
        · simp only [ValueExpr.validate, validated] at valid
          cases valid
          rfl
      case aggregation =>
        obtain ⟨_, _, _, _, _, _, _, _, _, rfl⟩ := Validate.aggregation_parts valid
        rfl

/-- Validation keeps a value known. -/
theorem known [ZoneTable] (valid : node.validate = .ok node') (isKnown : node.isConstant = true) :
    node'.isConstant = true := (isConstant_iff (.value valid)).2 isKnown

/-- Validation leaves a value as it is that is known and names no time zone. -/
theorem eq_of_namesNoZone [ZoneTable] (valid : node.validate = .ok node')
    (isKnown : node.isConstant = true)
    (zoneless : (Expr.value node).Everywhere NamesNoZone) : node' = node := by
  generalize same : Expr.value node = expr at zoneless
  induction expr using Expr.byChildren generalizing node node' with
  | node expr ih =>
    subst same
    by_cases plain : (Expr.value node).isPlain = true
    · have same := (sameNode_iff plain).1 (.value valid)
      refine Expr.value.inj (SameNode.eq (same.imp fun child member child' validates => ?_)).symm
      obtain ⟨knownChild, node, rfl⟩ := ValueExpr.isConstant_child isKnown member
      obtain ⟨node', valid, rfl⟩ := exists_value.1 validates
      rw [ih _ member valid knownChild rfl (zoneless.child member)]
    cases node <;> first | exact absurd rfl plain | skip
    case path => cases isKnown
    case parameter => cases isKnown
    case aggregation => cases isKnown
    case quantum span taken operand zone _ =>
      have knownOperand : operand.isConstant = true := isKnown
      obtain rfl : zone = none := zoneless.here
      simp only [ValueExpr.validate, bind_eq_ok, pure_eq_ok, Stopped.within_eq_ok] at valid
      obtain ⟨operand', only, rfl⟩ := valid
      have member := List.mem_singleton_self (Expr.value operand)
      rw [ih _ member only knownOperand rfl (zoneless.child member)]
    case call span name arguments binding =>
      rcases binding with _ | binding
      · cases isKnown
      obtain ⟨arguments', binding', all, found, rfl⟩ := (Validate.call_eq_ok
        (Validate.validatesArguments_of_isConstantCall isKnown)).1 valid
      have knownArguments :=
        Reduce.forall_isConstant (Reduce.all_of_isConstantCall isKnown)
      have kept : List.Forall₂ Eq arguments arguments' := by
        refine forall₂_imp_of_mem (fun node listed node' valid => ?_) all
        have member : Expr.value node ∈ arguments.map .value := List.mem_map_of_mem listed
        exact (ih _ member valid (knownArguments node listed) rfl (zoneless.child member)).symm
      rw [List.forall₂_eq_eq_eq] at kept
      subst kept
      rw [Validate.eq_of_checkCall_zoneless found zoneless.here]

end Expr.ValidatesTo

/-! ### Optimization -/

namespace Expr.ValidatesTo

variable {root : Path} {node node' : ValueExpr} {value : Constant}

/-- The children of a validated value have constants if the value has one. -/
private theorem exists_reduce [ZoneTable] (valid : node.validate = .ok node')
    (isKnown : node.isConstant = true)
    (resolved : (Expr.value node).Resolved root) (found : node'.reduce = .ok value) :
    ∀ child ∈ (Expr.value node').children, ∃ constant, child.reduce = .ok constant := by
  cases node
  case path => cases isKnown
  case parameter => cases isKnown
  case aggregation => cases isKnown
  case now => cases isKnown
  case constant =>
    cases valid
    exact List.forall_mem_nil _
  case binary =>
    simp only [ValueExpr.validate, bind_eq_ok, pure_eq_ok] at valid
    obtain ⟨left', _, right', _, rfl⟩ := valid
    obtain ⟨left, first, found⟩ := bind_eq_ok.1 found
    obtain ⟨right, second, _⟩ := bind_eq_ok.1 found
    exact List.forall_mem_cons.2 ⟨⟨left, first⟩, List.forall_mem_singleton.2 ⟨right, second⟩⟩
  case quantum span taken operand zone timeZone =>
    have only : ∃ operand' known, node' = .quantum span taken operand' zone known := by
      rcases zone with _ | zone <;>
        simp only [ValueExpr.validate, bind_eq_ok, pure_eq_ok] at valid
      · obtain ⟨operand', _, rfl⟩ := valid
        exact ⟨operand', _, rfl⟩
      · obtain ⟨operand', _, _, _, rfl⟩ := valid
        exact ⟨operand', _, rfl⟩
    obtain ⟨operand', known, rfl⟩ := only
    obtain ⟨constant, only, _⟩ := bind_eq_ok.1 found
    exact List.forall_mem_singleton.2 ⟨constant, only⟩
  case call span name arguments binding =>
    rcases binding with _ | binding
    · cases isKnown
    obtain ⟨arguments', binding', all, checked, rfl⟩ := (Validate.call_eq_ok
      (Validate.validatesArguments_of_isConstantCall isKnown)).1 valid
    obtain ⟨_, ⟨⟩, fits⟩ := resolved
    refine List.forall_mem_map.2 fun child listed => ?_
    obtain ⟨index, isChild⟩ := List.mem_iff_getElem?.1 listed
    exact Reduce.exists_of_callConstant checked (all.length_eq ▸ fits.accepted) found isChild
  all_goals
    simp only [ValueExpr.validate, bind_eq_ok, pure_eq_ok] at valid
    obtain ⟨operand', _, rfl⟩ := valid
    obtain ⟨constant, only, _⟩ := bind_eq_ok.1 found
    exact List.forall_mem_singleton.2 ⟨constant, only⟩

/-- A known value that is validated and has a constant is optimized to this constant. -/
theorem optimize_of_isConstant [ZoneTable] (valid : node.validate = .ok node')
    (isKnown : node.isConstant = true) (resolved : (Expr.value node).Everywhere (Resolved root))
    (found : node'.reduce = .ok value) :
    ∃ span, node'.optimize true = .ok (.constant span value) := by
  generalize same : Expr.value node = expr at resolved
  induction expr using Expr.byChildren generalizing node node' value with
  | node expr ih =>
    subst same
    suffices optimized : Optimized true (.value node') ((Expr.value node').asConstant value) from
      ⟨node'.span, Optimized.value_iff.1 optimized⟩
    refine optimized_asConstant (known valid isKnown) found fun child' member => ?_
    obtain ⟨constant, found⟩ := exists_reduce valid isKnown resolved.here found child' member
    obtain ⟨-, -, stems⟩ := (ValidatesTo.value valid).inversion resolved.here
    rcases stems child' member with literal | ⟨child, listed, validates⟩
    · obtain ⟨span, constant, rfl | rfl⟩ := Expr.exists_of_isLiteral literal <;> exact ⟨_, rfl⟩
    · obtain ⟨knownChild, node, rfl⟩ := ValueExpr.isConstant_child isKnown listed
      obtain ⟨node', valid, rfl⟩ := exists_value.1 validates
      obtain ⟨span, optimizes⟩ := ih _ listed valid knownChild found rfl (resolved.child listed)
      exact ⟨_, Optimized.value_iff.2 optimizes⟩

end Expr.ValidatesTo

/-! ### Compilation -/

theorem ValueExpr.checked_eq_ok [ZoneTable] {node node' : ValueExpr} {point : Option Path} :
    node.checked = .ok (node', point) ↔ node.validate = .ok node' ∧
      (∃ type, node'.type = .ok type) ∧ node'.point = .ok point := by
  simp only [checked, bind_eq_ok, pure_eq_ok, Stopped.check_eq_ok, Prod.mk.injEq]
  constructor
  · rintro ⟨_, validates, type, typed, _, found, rfl, rfl⟩
    exact ⟨validates, ⟨type, typed⟩, found⟩
  · rintro ⟨validates, ⟨type, typed⟩, found⟩
    exact ⟨node', validates, type, typed, point, found, rfl, rfl⟩

namespace Session

variable {session : Session}

theorem compileExpr_value_eq_ok [ZoneTable] {node : ValueExpr} {expr' : Expr} :
    session.compileExpr (.value node) = .ok expr' ↔
      Visit.checkDepth session.config.maxDepth (Visit.ofExpr (.value node)) = .ok () ∧
      ∃ settings, session.config.settings = .ok settings ∧
      ∃ bound, node.bind (session.context settings) = .ok bound ∧
      ∃ valid point, bound.checked = .ok (valid, point) ∧
        Optimized session.config.fold (.value valid) expr' := by
  rw [compileExpr_eq_ok]
  refine and_congr_right fun _ => exists_congr fun settings => and_congr_right fun _ => ?_
  constructor
  · rintro ⟨expr, binds, valid, point, validates, optimizes⟩
    obtain ⟨bound, found, rfl⟩ := Expr.BindsIn.exists_value.1 (Expr.BindsIn.iff_bind.2 binds)
    simp only [Expr.validate, bind_eq_ok, pure_eq_ok, Stopped.within_eq_ok] at validates
    obtain ⟨⟨valid, point⟩, checks, same⟩ := validates
    obtain ⟨rfl, rfl⟩ := Prod.mk.inj same
    exact ⟨bound, found, valid, point, checks, optimizes⟩
  · rintro ⟨bound, binds, valid, point, checks, optimizes⟩
    refine ⟨.value bound, Expr.BindsIn.iff_bind.1 (.value binds), .value valid, point, ?_,
      optimizes⟩
    simp [Expr.validate, checks]

/-- By itself a known value compiles to what its checked form reduces to. -/
theorem compileExpr_iff_checked [ZoneTable] {node bound : ValueExpr} {settings : Settings}
    {value : Constant}
    (folds : session.config.fold = true) (configured : session.config.settings = .ok settings)
    (shallow : Visit.checkDepth session.config.maxDepth (Visit.ofExpr (.value node)) = .ok ())
    (binds : node.bind (session.context settings) = .ok bound) (known : bound.isConstant = true) :
    (∃ span, session.compileExpr (.value node) = .ok (.value (.constant span value))) ↔
      ∃ valid point, bound.checked = .ok (valid, point) ∧ valid.reduce = .ok value := by
  constructor
  · rintro ⟨span, compiles⟩
    obtain ⟨-, settings', configured', bound', binds', valid, point, checks, optimizes⟩ :=
      compileExpr_value_eq_ok.1 compiles
    obtain rfl := Except.ok.inj (configured.symm.trans configured')
    obtain rfl := Except.ok.inj (binds.symm.trans binds')
    have validates := (ValueExpr.checked_eq_ok.1 checks).1
    rw [folds] at optimizes
    obtain ⟨_, constant, same, found⟩ :=
      optimizes.literal_of_isConstant (Expr.ValidatesTo.known validates known)
    obtain ⟨rfl, rfl⟩ := ValueExpr.constant.inj (Expr.value.inj same)
    exact ⟨valid, point, checks, found⟩
  · rintro ⟨valid, point, checks, found⟩
    have validates := (ValueExpr.checked_eq_ok.1 checks).1
    have resolved := (Expr.BindsIn.value binds).everywhere_bound.imp fun _ bound => bound.resolved
    obtain ⟨span, optimizes⟩ :=
      Expr.ValidatesTo.optimize_of_isConstant validates known resolved found
    refine ⟨span, compileExpr_value_eq_ok.2
      ⟨shallow, settings, configured, bound, binds, valid, point, checks, ?_⟩⟩
    rw [folds]
    exact Optimized.value_iff.2 optimizes

end Session

end EventQuery
