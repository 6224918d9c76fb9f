import EventQuery.Proofs.BoundTrees
import EventQuery.Proofs.Points
import EventQuery.Proofs.Reduction
import EventQuery.Proofs.TypingRules

/-!
No pass fails over a name without meaning when every node is bound. Every failure of a pass
is a diagnostic of one kind; the kind of a name without meaning is raised only where a
resolution is missing, or where a call has too few arguments.
-/
namespace EventQuery

open Outcome

/-- The result is no failure over a name without meaning. -/
def NeverUnresolved {α : Type} (result : Except Diagnostic α) : Prop :=
  ∀ cause, result = .error cause → cause.kind ≠ .unresolvedReference

@[simp] theorem Diagnostic.kind_of (kind : DiagnosticKind) (span : Span) (detail : String) :
    (Diagnostic.of kind span detail).kind = kind := rfl

@[simp] theorem Diagnostic.kind_withHint (cause : Diagnostic) (hint : String) :
    (cause.withHint hint).kind = cause.kind := rfl

theorem Function.pos_of_accepts {function : Function} {count : Nat}
    (accepted : function.arity.accepts count = true) : 0 < count := by
  cases function <;> simp [arity, Arity.accepts] at accepted <;> omega

namespace NeverUnresolved

variable {α β : Type} {span : Span} {name : String}

@[simp] theorem ok {value : α} : NeverUnresolved (.ok value) := nofun

@[simp] theorem pure {value : α} : NeverUnresolved (Pure.pure value) := nofun

@[simp] theorem error_iff {cause : Diagnostic} :
    NeverUnresolved (.error cause : Except Diagnostic α) ↔ cause.kind ≠ .unresolvedReference := by
  constructor
  · intro never
    exact never cause rfl
  · rintro known _ ⟨⟩
    exact known

@[simp] theorem throw_iff {cause : Diagnostic} :
    NeverUnresolved (throw cause : Except Diagnostic α) ↔ cause.kind ≠ .unresolvedReference :=
  error_iff

@[simp] theorem throw_bind_iff {cause : Diagnostic} {next : α → Except Diagnostic β} :
    NeverUnresolved (throw cause >>= next) ↔ cause.kind ≠ .unresolvedReference :=
  error_iff

theorem bind {result : Except Diagnostic α} {next : α → Except Diagnostic β}
    (first : NeverUnresolved result)
    (rest : ∀ value, result = .ok value → NeverUnresolved (next value)) :
    NeverUnresolved (result >>= next) := by
  cases result with
  | ok value => exact rest value rfl
  | error cause => exact error_iff.2 (first cause rfl)

@[simp] theorem map_iff {result : Except Diagnostic α} {change : α → β} :
    NeverUnresolved (change <$> result) ↔ NeverUnresolved result := by
  cases result with
  | ok value => simp
  | error cause => simp

theorem bind_pure_iff {result : Except Diagnostic α} {change : α → β} :
    NeverUnresolved (do return change (← result)) ↔ NeverUnresolved result := by
  cases result with
  | ok value => exact ⟨fun _ => ok, fun _ => ok⟩
  | error cause => exact error_iff.trans error_iff.symm

theorem mapM {parts : List α} {f : α → Except Diagnostic β}
    (each : ∀ part ∈ parts, NeverUnresolved (f part)) : NeverUnresolved (parts.mapM f) := by
  induction parts with
  | nil => exact ok
  | cons part rest ih =>
    obtain ⟨first, others⟩ := List.forall_mem_cons.1 each
    rw [List.mapM_cons]
    exact first.bind fun _ _ => (ih others).bind fun _ _ => ok

theorem forM {parts : List α} {check : α → Except Diagnostic Unit}
    (each : ∀ part ∈ parts, NeverUnresolved (check part)) : NeverUnresolved (parts.forM check) := by
  rw [List.forM_eq_forM]
  induction parts with
  | nil => exact ok
  | cons part rest ih =>
    obtain ⟨first, others⟩ := List.forall_mem_cons.1 each
    rw [List.forM_cons]
    exact first.bind fun _ _ => ih others

theorem option_mapM {part : Option α} {f : α → Except Diagnostic β}
    (each : ∀ found, part = some found → NeverUnresolved (f found)) :
    NeverUnresolved (part.mapM f) := by
  cases part with
  | none => exact ok
  | some found => exact map_iff.2 (each found rfl)

/-! ### Types -/

section Typing

open Typing

variable {type left right : DataType} {op : AggregationOp}

theorem common : NeverUnresolved (Typing.common span left right) := by
  unfold Typing.common
  split <;> simp [typeError]

theorem constantPredicate {value : Constant} :
    NeverUnresolved (Typing.constantPredicate span value) := by
  unfold Typing.constantPredicate
  split <;> simp [typeError]

theorem checkOrdered {what : String} : NeverUnresolved (Typing.checkOrdered span what type) := by
  unfold Typing.checkOrdered
  split <;> simp [typeError]

theorem checkComparison {op : Relation} :
    NeverUnresolved (Typing.checkComparison span op left right) := by
  refine common.bind fun _ _ => ?_
  split
  · exact checkOrdered
  · exact ok

theorem checkBounds {lower upper : Found} (first : NeverUnresolved lower)
    (second : NeverUnresolved upper) :
    NeverUnresolved (Typing.checkBounds span type lower upper) :=
  first.bind fun _ _ => common.bind fun _ _ => second.bind fun _ _ => common.bind fun _ _ =>
    checkOrdered

theorem checkCandidates {candidates : List (Span × Found)}
    (each : ∀ candidate ∈ candidates, NeverUnresolved candidate.2) :
    NeverUnresolved (Typing.checkCandidates type candidates) :=
  forM fun candidate listed => (each candidate listed).bind fun _ _ => common.bind fun _ _ => ok

theorem checkVector {vector : ValueExpr} {found : Found} (only : NeverUnresolved found) :
    NeverUnresolved (Typing.checkVector span type vector found) := by
  unfold Typing.checkVector
  split
  · simp [typeError]
  · exact only.bind fun _ _ => common.bind fun _ _ => ok

theorem checkPredicate : NeverUnresolved (Typing.checkPredicate span type) := by
  unfold Typing.checkPredicate
  split <;> simp [typeError]

theorem pathType {path : Path} : NeverUnresolved (Typing.pathType span name (some path)) := by
  unfold Typing.pathType
  dsimp only
  split <;> simp [typeError]

theorem binaryType {op : Arithmetic} :
    NeverUnresolved (Typing.binaryType span op left right) := by
  unfold Typing.binaryType
  split <;> simp [typeError]

theorem unaryType {sign : Sign} : NeverUnresolved (Typing.unaryType span sign type) := by
  unfold Typing.unaryType
  split <;> simp [typeError]

theorem castType {target : DataType} : NeverUnresolved (Typing.castType span target type) := by
  unfold Typing.castType
  split <;> simp [typeError]

theorem conversionType {kind : Conversion} :
    NeverUnresolved (Typing.conversionType span kind type) := by
  unfold Typing.conversionType
  dsimp only
  split <;> split <;> simp [typeError]

theorem quantumType {taken : Quantum} : NeverUnresolved (Typing.quantumType span taken type) := by
  unfold Typing.quantumType
  split <;> simp [typeError]

theorem checkCount : NeverUnresolved (Typing.checkCount op span type) := by
  unfold Typing.checkCount
  split <;> simp [typeError]

theorem aggregationType {target : ValueExpr} {found : Found} (only : NeverUnresolved found) :
    NeverUnresolved (Typing.aggregationType span op target found) := by
  have ordered : NeverUnresolved (do
      let type ← found
      if type = .boolean || !type.isOrderable then
        throw (typeError span s!"{op.keyword} needs an ordered value, found {type.name}")
      return type : Found) := by
    refine only.bind fun _ _ => ?_
    split <;> simp [typeError]
  have counted : NeverUnresolved
      (if target.resolved?.any Path.isRelation then .ok .long else do
        let _ ← found
        return .long : Found) := by
    split
    · exact ok
    · exact only.bind fun _ _ => ok
  cases op with
  | count => exact counted
  | unique => exact counted
  | sum =>
    refine only.bind fun _ _ => ?_
    split
    · exact ok
    · split <;> simp [typeError]
  | min => exact ordered
  | max => exact ordered
  | top => exact ordered

/-- A call whose arguments have a type, or lack one for another reason. -/
theorem expect {call : Call} {index : Nat} {expected : String} {accepts : DataType → Bool}
    (given : index < call.arguments.length)
    (each : ∀ argument ∈ call.arguments, NeverUnresolved argument.2) :
    NeverUnresolved (call.expect index expected accepts) := by
  unfold Call.expect
  rw [List.getElem?_eq_getElem given]
  refine (each _ (List.getElem_mem given)).bind fun _ _ => ?_
  split <;> simp [typeError]

theorem checkStrings {call : Call}
    (each : ∀ argument ∈ call.arguments, NeverUnresolved argument.2) :
    NeverUnresolved (Typing.checkStrings call) := by
  refine forM fun index listed => (expect ?_ each).bind fun _ _ => ok
  have := List.mem_range.1 listed
  omega

theorem callCandidates {call : Call} (given : call.arguments ≠ [])
    (each : ∀ argument ∈ call.arguments, NeverUnresolved argument.2) :
    NeverUnresolved call.checkCandidates := by
  unfold Call.checkCandidates
  split
  case h_1 none => exact absurd none given
  case h_2 first candidates found =>
    rw [found] at each
    obtain ⟨only, others⟩ := List.forall_mem_cons.1 each
    refine only.bind fun _ _ => forM fun candidate listed => ?_
    refine (others candidate listed).bind fun _ _ => ?_
    split <;> simp [typeError]

theorem callType {call : Call} {root : Path} {arguments : List ValueExpr} {binding : Binding}
    (complete : binding.Complete root arguments)
    (given : call.arguments.length = arguments.length)
    (each : ∀ argument ∈ call.arguments, NeverUnresolved argument.2) :
    NeverUnresolved (Typing.callType call binding) := by
  have some := Function.pos_of_accepts complete.accepted
  rw [← given] at some
  obtain ⟨function, state⟩ := binding
  cases function with
  | parseDatetime => exact (expect some each).bind fun _ _ => ok
  | formatDatetime =>
    exact (expect some each).bind fun _ _ => (checkStrings each).bind fun _ _ => ok
  | epochMillis => exact (expect some each).bind fun _ _ => ok
  | enum => exact (callCandidates (List.ne_nil_of_length_pos some) each).bind fun _ _ => ok
  | split =>
    exact (expect some each).bind fun _ _ =>
      (callCandidates (List.ne_nil_of_length_pos some) each).bind fun _ _ => ok
  | frequency =>
    obtain ⟨path, rfl⟩ := complete.located (.inl rfl)
    exact ok
  | size =>
    obtain ⟨path, rfl⟩ := complete.located (.inr rfl)
    exact ok
  | about reference =>
    obtain ⟨_, _, -, rfl⟩ := complete.asked reference rfl
    exact ok

end Typing

@[simp] theorem type_bool_iff {node : BoolExpr} :
    NeverUnresolved (Expr.bool node).type ↔ NeverUnresolved node.checkTypes :=
  bind_pure_iff

@[simp] theorem type_value_iff {node : ValueExpr} :
    NeverUnresolved (Expr.value node).type ↔ NeverUnresolved node.type := .rfl

private theorem types {nodes : List ValueExpr}
    (each : ∀ node ∈ nodes, NeverUnresolved node.type) :
    ∀ candidate ∈ ValueExpr.types nodes, NeverUnresolved candidate.2 := by
  rw [Typing.types_eq_map]
  exact List.forall_mem_map.2 each

private theorem boolType {node : BoolExpr}
    (below : ∀ child ∈ node.children, NeverUnresolved child.type) :
    NeverUnresolved node.checkTypes := by
  cases node <;>
    simp only [BoolExpr.children, List.forall_mem_cons, List.forall_mem_map, type_bool_iff,
      type_value_iff, List.not_mem_nil, false_implies, implies_true, and_true] at below
  case constant => exact constantPredicate
  case binary => exact below.1.bind fun _ _ => below.2
  case not => exact below
  case comparison => exact below.1.bind fun _ _ => below.2.bind fun _ _ => checkComparison
  case bounds => exact below.1.bind fun _ _ => checkBounds below.2.1 below.2.2
  case nullTest => exact below.bind fun _ _ => ok
  case inList => exact below.1.bind fun _ _ => checkCandidates (types below.2)
  case inVector => exact below.1.bind fun _ _ => checkVector below.2
  case wrapper => exact below.bind fun _ _ => checkPredicate
  case boundary => exact ok
  case stepReference => exact ok

private theorem valueType {context : Context} {node : ValueExpr}
    (bound : (Expr.value node).Bound context)
    (below : ∀ child ∈ node.children, NeverUnresolved child.type) :
    NeverUnresolved node.type := by
  cases node <;>
    simp only [ValueExpr.children, List.forall_mem_append, List.forall_mem_cons,
      List.forall_mem_map, type_bool_iff, type_value_iff, List.not_mem_nil, false_implies,
      implies_true, and_true, Option.mem_toList] at below
  case constant => exact ok
  case path =>
    obtain ⟨path, rfl⟩ := Option.isSome_iff_exists.1 bound
    exact pathType
  case parameter =>
    obtain ⟨type, rfl⟩ := Option.isSome_iff_exists.1 bound
    exact ok
  case binary => exact below.1.bind fun _ _ => below.2.bind fun _ _ => binaryType
  case unary => exact below.bind fun _ _ => unaryType
  case cast => exact below.bind fun _ _ => castType
  case conversion => exact below.bind fun _ _ => conversionType
  case quantum => exact below.bind fun _ _ => quantumType
  case call =>
    obtain ⟨binding, rfl, complete⟩ := bound
    exact callType complete (by simp [Typing.types_eq_map]) (types below)
  case aggregation span op count target condition scope quanta scopePath =>
    obtain ⟨⟨counted, only, met⟩, lasting⟩ := below
    have typed : NeverUnresolved (Typing.aggregationType span op target target.type) :=
      aggregationType only
    cases condition <;> cases count <;> cases quanta <;> simp only [ValueExpr.type]
    all_goals
      repeat' first
        | exact typed
        | exact checkCount
        | exact met _ rfl
        | exact counted _ rfl
        | exact lasting _ rfl
        | refine bind ?_ fun _ _ => ?_
  case now => exact ok

/-- The type of a bound expression lacks no name. -/
theorem type {context : Context} {expr : Expr} (bound : expr.Everywhere (Expr.Bound context)) :
    NeverUnresolved expr.type := by
  induction bound with
  | @node expr here _ ih =>
    cases expr with
    | bool node => exact type_bool_iff.2 (boolType ih)
    | value node => exact valueType here ih


/-! ### Evaluation points -/

section Axis

open Axis

theorem combineFrom {lowest : Option Path} {points : List Point}
    (each : ∀ point ∈ points, NeverUnresolved point) :
    NeverUnresolved (Axis.combineFrom span lowest points) := by
  induction points generalizing lowest with
  | nil => exact ok
  | cons point rest ih =>
    obtain ⟨first, others⟩ := List.forall_mem_cons.1 each
    refine first.bind fun _ _ => ?_
    split
    · exact ih others
    · exact ih others
    · split
      · exact ih others
      · simp [offAxis, scopeError]

theorem combine {points : List Point} (each : ∀ point ∈ points, NeverUnresolved point) :
    NeverUnresolved (Axis.combine span points) := combineFrom each

theorem callPoint {root : Path} {arguments : List ValueExpr} {binding : Binding}
    {points : List Point} (complete : binding.Complete root arguments)
    (each : ∀ point ∈ points, NeverUnresolved point) :
    NeverUnresolved (Axis.callPoint span name binding points) := by
  obtain ⟨function, state⟩ := binding
  cases function with
  | frequency =>
    obtain ⟨path, rfl⟩ := complete.located (.inl rfl)
    exact ok
  | size =>
    obtain ⟨path, rfl⟩ := complete.located (.inr rfl)
    simp only [Axis.callPoint]
    split <;> simp [scopeError]
  | about reference =>
    obtain ⟨_, _, -, rfl⟩ := complete.asked reference rfl
    exact ok
  | _ => exact combine each

theorem checkBelow {scope point : Path} {what : String} :
    NeverUnresolved (Axis.checkBelow scope point span what) := by
  unfold Axis.checkBelow
  split <;> simp [scopeError]

theorem checkTarget {scope : Path} {target : Option Path} :
    NeverUnresolved (Axis.checkTarget scope span target) := by
  cases target with
  | none => exact ok
  | some point => exact checkBelow

theorem checkCondition {scope : Path} {target condition : Option Path} :
    NeverUnresolved (Axis.checkCondition scope target span condition) := by
  cases condition with
  | none => exact ok
  | some point =>
    refine checkBelow.bind fun _ _ => ?_
    cases target with
    | none => exact ok
    | some target =>
      dsimp only
      split <;> simp [offAxis, scopeError]

private theorem points {nodes : List ValueExpr}
    (each : ∀ node ∈ nodes, NeverUnresolved (Expr.value node).point) :
    ∀ point ∈ ValueExpr.points nodes, NeverUnresolved point := by
  rw [points_eq_map]
  exact List.forall_mem_map.2 each

private theorem boolPoint {context : Context} {node : BoolExpr}
    (bound : (Expr.bool node).Bound context)
    (below : ∀ child ∈ node.children, NeverUnresolved child.point) :
    NeverUnresolved node.point := by
  cases node <;> simp only [BoolExpr.children, List.forall_mem_cons, List.forall_mem_map] at below
  case inList => exact combine (List.forall_mem_cons.2 ⟨below.1, points below.2⟩)
  case boundary =>
    obtain ⟨path, rfl, -⟩ := bound
    exact ok
  case constant => exact ok
  case stepReference => exact ok
  all_goals exact combine (by simpa [Expr.point] using below)

private theorem valuePoint {context : Context} {node : ValueExpr}
    (bound : (Expr.value node).Bound context)
    (below : ∀ child ∈ node.children, NeverUnresolved child.point) :
    NeverUnresolved node.point := by
  cases node <;>
    simp only [ValueExpr.children, List.forall_mem_append, List.forall_mem_cons,
      List.forall_mem_map, Option.mem_toList] at below
  case constant => exact ok
  case path =>
    obtain ⟨path, rfl⟩ := Option.isSome_iff_exists.1 bound
    exact ok
  case parameter => exact ok
  case call =>
    obtain ⟨binding, rfl, complete⟩ := bound
    exact callPoint complete (points below)
  case aggregation span op count target condition scope quanta scopePath =>
    obtain ⟨-, -, path, rfl, -⟩ := bound
    obtain ⟨⟨counted, only, met⟩, lasting⟩ := below
    cases condition <;> cases count <;> cases quanta <;> simp only [ValueExpr.point]
    all_goals
      repeat' first
        | exact ok
        | exact only
        | exact checkTarget
        | exact checkCondition
        | exact met _ rfl
        | exact counted _ rfl
        | exact lasting _ rfl
        | refine bind ?_ fun _ _ => ?_
  case now => exact ok
  all_goals exact combine (by simpa [Expr.point] using below)

/-- The point of a bound expression lacks no name. -/
theorem point {context : Context} {expr : Expr} (bound : expr.Everywhere (Expr.Bound context)) :
    NeverUnresolved expr.point := by
  induction bound with
  | @node expr here _ ih =>
    cases expr with
    | bool node => exact boolPoint here ih
    | value node => exact valuePoint here ih

end Axis

/-! ### Reduction -/

section Reduce

open Reduce

theorem orFault {result : Except ConstantError α} :
    NeverUnresolved (Reduce.orFault span result) := by
  cases result with
  | ok value => exact ok
  | error cause =>
    refine error_iff.2 ?_
    unfold fault
    split <;> simp

theorem constant {call : Call} {index : Nat} (given : index < call.arguments.length)
    (each : ∀ argument ∈ call.arguments, NeverUnresolved argument.value) :
    NeverUnresolved (call.constant index) := by
  unfold Call.constant
  rw [List.getElem?_eq_getElem given]
  dsimp only
  split
  · exact each _ (List.getElem_mem given)
  · simp

theorem constantTail {call : Call}
    (each : ∀ argument ∈ call.arguments, NeverUnresolved argument.value) :
    NeverUnresolved call.constantTail := by
  refine mapM fun index listed => constant ?_ each
  have := List.mem_range.1 listed
  omega

theorem enumIndex {value : Constant} {index : Nat} {candidates : List Constant} :
    NeverUnresolved (Reduce.enumIndex span value index candidates) := by
  induction candidates generalizing index with
  | nil => exact ok
  | cons candidate rest ih =>
    refine orFault.bind fun _ _ => ?_
    split
    · exact ok
    · exact ih

theorem splitBucket {value : Constant} {bucket : Int32} {boundaries : List Constant} :
    NeverUnresolved (Reduce.splitBucket span value bucket boundaries) := by
  induction boundaries generalizing bucket with
  | nil => exact ok
  | cons boundary rest ih => exact orFault.bind fun _ _ => ih

theorem callConstant {call : Call} {root : Path} {arguments : List ValueExpr} {binding : Binding}
    (complete : binding.Complete root arguments)
    (given : call.arguments.length = arguments.length)
    (each : ∀ argument ∈ call.arguments, NeverUnresolved argument.value) :
    NeverUnresolved (Reduce.callConstant call binding) := by
  have accepted := complete.accepted
  have some := Function.pos_of_accepts accepted
  rw [← given] at some accepted
  obtain ⟨function, state⟩ := binding
  have runtime : NeverUnresolved (.error (notBeforeRuntime call) : Found) := by
    simp [notBeforeRuntime]
  cases function with
  | parseDatetime => exact (constant some each).bind fun _ _ => orFault
  | epochMillis => exact (constant some each).bind fun _ _ => orFault
  | formatDatetime =>
    have second : 1 < call.arguments.length := by
      simp [Function.arity, Arity.accepts] at accepted
      omega
    refine (constant some each).bind fun _ _ => (constant second each).bind fun _ _ => ?_
    split
    · exact ok
    · split
      · split <;> simp
      · exact runtime
  | enum => exact (constant some each).bind fun _ _ => (constantTail each).bind fun _ _ => enumIndex
  | split =>
    refine (constant some each).bind fun _ _ => ?_
    split
    · exact ok
    · exact (constantTail each).bind fun _ _ => splitBucket
  | frequency => exact runtime
  | size => exact runtime
  | about => exact runtime

theorem comparison {op : Relation} {left right : Constant} :
    NeverUnresolved (Reduce.comparison span op left right) := orFault

theorem isBetween {value : Constant} {lower upper : Found} (first : NeverUnresolved lower)
    (second : NeverUnresolved upper) :
    NeverUnresolved (Reduce.isBetween span value lower upper) := by
  refine first.bind fun _ _ => comparison.bind fun _ _ => ?_
  split
  · exact second.bind fun _ _ => comparison
  · exact ok

theorem isAmong {value : Constant} {candidates : List Argument}
    (each : ∀ candidate ∈ candidates, NeverUnresolved candidate.value) :
    NeverUnresolved (Reduce.isAmong span value candidates) := by
  induction candidates with
  | nil => exact ok
  | cons candidate rest ih =>
    obtain ⟨first, others⟩ := List.forall_mem_cons.1 each
    refine first.bind fun _ _ => comparison.bind fun _ _ => ?_
    split
    · exact ok
    · exact ih others

theorem signedConstant {sign : Sign} {operand : Constant} :
    NeverUnresolved (Reduce.signedConstant span sign operand) := by
  cases sign with
  | minus => exact orFault
  | plus => exact ok

theorem converted {kind : Conversion} {operand : Constant} :
    NeverUnresolved (Reduce.converted span kind operand) := by
  unfold Reduce.converted
  split
  · exact ok
  · split
    · exact orFault.bind fun _ _ => orFault
    · split <;> exact orFault

theorem quantumConstant {taken : Quantum} {zone : Option TimeZone} {operand : Constant} :
    NeverUnresolved (Reduce.quantumConstant span taken zone operand) := by
  unfold Reduce.quantumConstant
  split
  · exact ok
  · dsimp only
    split
    · exact error_iff.2 fun kind => by cases kind
    · exact orFault
  · refine error_iff.2 ?_
    unfold fault
    split <;> simp

@[simp] theorem reduce_bool_iff {node : BoolExpr} :
    NeverUnresolved (Expr.bool node).reduce ↔ NeverUnresolved node.reduce :=
  bind_pure_iff

@[simp] theorem reduce_value_iff {node : ValueExpr} :
    NeverUnresolved (Expr.value node).reduce ↔ NeverUnresolved node.reduce := .rfl

theorem arguments {nodes : List ValueExpr}
    (each : ∀ node ∈ nodes, NeverUnresolved node.reduce) :
    ∀ argument ∈ ValueExpr.arguments nodes, NeverUnresolved argument.value := by
  rw [arguments_eq_map]
  exact List.forall_mem_map.2 each

private theorem runtime : NeverUnresolved (.error (notConstant span) : Except Diagnostic α) := by
  simp [notConstant]

private theorem boolReduce {node : BoolExpr}
    (below : ∀ child ∈ node.children, NeverUnresolved child.reduce) :
    NeverUnresolved node.reduce := by
  cases node <;>
    simp only [BoolExpr.children, List.forall_mem_cons, List.forall_mem_map, reduce_bool_iff,
      reduce_value_iff, List.not_mem_nil, false_implies, implies_true, and_true] at below
  case constant => exact ok
  case binary => exact below.1.bind fun _ _ => below.2.bind fun _ _ => ok
  case not => exact below.bind fun _ _ => ok
  case comparison => exact below.1.bind fun _ _ => below.2.bind fun _ _ => comparison
  case bounds => exact below.1.bind fun _ _ => (isBetween below.2.1 below.2.2).bind fun _ _ => ok
  case nullTest => exact below.bind fun _ _ => ok
  case inList => exact below.1.bind fun _ _ => isAmong (arguments below.2)
  case inVector => exact runtime
  case wrapper => exact below.bind fun _ _ => ok
  case boundary => exact runtime
  case stepReference => exact runtime

private theorem valueReduce {context : Context} {node : ValueExpr}
    (bound : (Expr.value node).Bound context)
    (below : ∀ child ∈ node.children, NeverUnresolved child.reduce) :
    NeverUnresolved node.reduce := by
  cases node <;>
    simp only [ValueExpr.children, List.forall_mem_cons, List.forall_mem_map, reduce_value_iff,
      List.not_mem_nil, false_implies, implies_true, and_true] at below
  case constant => exact ok
  case path => exact runtime
  case parameter => exact runtime
  case binary => exact below.1.bind fun _ _ => below.2.bind fun _ _ => orFault
  case unary => exact below.bind fun _ _ => signedConstant
  case cast => exact below.bind fun _ _ => orFault
  case conversion => exact below.bind fun _ _ => converted
  case quantum => exact below.bind fun _ _ => quantumConstant
  case call =>
    obtain ⟨binding, rfl, complete⟩ := bound
    exact callConstant complete (by simp [arguments_eq_map]) (arguments below)
  case aggregation => exact runtime
  case now => exact runtime

/-- The reduction of a bound expression lacks no name. -/
theorem reduce {context : Context} {expr : Expr} (bound : expr.Everywhere (Expr.Bound context)) :
    NeverUnresolved expr.reduce := by
  induction bound with
  | @node expr here _ ih =>
    cases expr with
    | bool node => exact reduce_bool_iff.2 (boolReduce ih)
    | value node => exact valueReduce here ih

end Reduce

end NeverUnresolved

end EventQuery
