import EventQuery.Analysis.Typing
import EventQuery.Proofs.Fading
import EventQuery.Proofs.Outcome

/-!
What each static rule accepts and states, apart from its diagnostic.
-/
namespace EventQuery

/-! ### Operators -/

/-- The type of operand that a conversion takes, besides `NULL`. -/
def Conversion.accepts : Conversion → DataType → Bool
  | toMillis => fun type => type == .datetime
  | _ => DataType.isIntegral

def Conversion.result : Conversion → DataType
  | toDatetime => .datetime
  | _ => .long

def Quantum.result : Quantum → DataType
  | truncate _ => .datetime
  | extract _ => .integer

namespace Typing

open Outcome

variable {span : Span}

@[simp] theorem common_eq_ok {a b type : DataType} :
    common span a b = .ok type ↔ DataType.common? a b = some type := by
  unfold common
  cases DataType.common? a b <;> simp

/-- Truth values are the only ones without an order. -/
@[simp] theorem checkOrdered_eq_ok {what : String} {type : DataType} :
    checkOrdered span what type = .ok () ↔ type ≠ .boolean := by
  cases type <;> simp [checkOrdered, DataType.isOrderable, DataType.isNumeric, DataType.rank?]

theorem checkComparison_eq_ok {op : Relation} {left right : DataType} :
    checkComparison span op left right = .ok () ↔
      ∃ type, DataType.common? left right = some type ∧
        (op.isOrdering = true → type ≠ .boolean) := by
  simp only [checkComparison, bind_eq_ok, common_eq_ok]
  refine exists_congr fun type => and_congr_right fun _ => ?_
  split
  case isTrue ordering => simp [ordering]
  case isFalse unordered => simp [unordered, pure, Except.pure]

@[simp] theorem binaryType_eq_ok {op : Arithmetic} {left right type : DataType} :
    binaryType span op left right = .ok type ↔ op.type? left right = some type := by
  unfold binaryType
  cases op.type? left right <;> simp

@[simp] theorem unaryType_eq_ok {sign : Sign} {operand type : DataType} :
    unaryType span sign operand = .ok type ↔
      (operand.isNumeric = true ∨ operand = .null) ∧ operand = type := by
  unfold unaryType
  split <;> simp_all

@[simp] theorem castType_eq_ok {target operand type : DataType} :
    castType span target operand = .ok type ↔
      DataType.isLegalCast operand target = true ∧ target = type := by
  unfold castType
  split <;> simp_all

@[simp] theorem conversionType_eq_ok {kind : Conversion} {operand type : DataType} :
    conversionType span kind operand = .ok type ↔
      (kind.accepts operand = true ∨ operand = .null) ∧ kind.result = type := by
  cases kind <;> cases operand <;>
    simp [conversionType, Conversion.accepts, Conversion.result, isDatetime, DataType.isIntegral]

@[simp] theorem quantumType_eq_ok {taken : Quantum} {operand type : DataType} :
    quantumType span taken operand = .ok type ↔
      (operand = .datetime ∨ operand = .null) ∧ taken.result = type := by
  cases taken <;> simp only [quantumType, Quantum.result] <;> split <;> simp_all

@[simp] theorem checkPredicate_eq_ok {type : DataType} :
    checkPredicate span type = .ok () ↔
      (type = .boolean ∨ type = .null) ∨ type.isNumeric = true := by
  unfold checkPredicate
  split <;> simp_all

@[simp] theorem checkCount_eq_ok {op : AggregationOp} {type : DataType} :
    checkCount op span type = .ok () ↔ type.isIntegral = true := by
  unfold checkCount
  split <;> simp_all

theorem checkBounds_eq_ok {value : DataType} {lower upper : Found} :
    checkBounds span value lower upper = .ok () ↔ ∃ low inner high outer, lower = .ok low ∧
      DataType.common? value low = some inner ∧ upper = .ok high ∧
        DataType.common? inner high = some outer ∧ outer ≠ .boolean := by
  simp only [checkBounds, bind_eq_ok, common_eq_ok, checkOrdered_eq_ok]
  constructor
  · rintro ⟨low, typed, inner, first, high, typed', outer, second, ordered⟩
    exact ⟨low, inner, high, outer, typed, first, typed', second, ordered⟩
  · rintro ⟨low, inner, high, outer, typed, first, typed', second, ordered⟩
    exact ⟨low, typed, inner, first, high, typed', outer, second, ordered⟩

theorem checkVector_eq_ok {value : DataType} {vector : ValueExpr} {found : Found} :
    checkVector span value vector found = .ok () ↔ vector.resolved?.any Path.isVector = true ∧
      ∃ type common, found = .ok type ∧ DataType.common? value type = some common := by
  simp only [checkVector]
  split
  case isTrue scalar => simp_all
  case isFalse isVector => simp_all

/-! ### Calls -/

theorem types_eq_map (nodes : List ValueExpr) :
    ValueExpr.types nodes = nodes.map fun node => (node.span, node.type) := by
  induction nodes with
  | nil => rfl
  | cons node rest ih => rw [ValueExpr.types, ih, List.map_cons]

variable {name : String} {nodes : List ValueExpr}

theorem expect_eq_ok {index : Nat} {expected : String} {accepts : DataType → Bool}
    {type : DataType} :
    Call.expect ⟨span, name, ValueExpr.types nodes⟩ index expected accepts = .ok type ↔
      ∃ node, nodes[index]? = some node ∧ node.type = .ok type ∧
        (type = .null ∨ accepts type = true) := by
  simp only [Call.expect, types_eq_map, List.getElem?_map]
  cases nodes[index]? with
  | none => simp
  | some node =>
    simp only [Option.map_some, bind_eq_ok, Option.some.injEq, exists_eq_left']
    constructor
    · rintro ⟨found, typed, accepted⟩
      split at accepted
      case isTrue holds =>
        obtain rfl := pure_eq_ok.1 accepted
        exact ⟨typed, by simpa using holds⟩
      case isFalse => cases accepted
    · rintro ⟨typed, accepted⟩
      refine ⟨type, typed, ?_⟩
      rw [if_pos (by simpa using accepted)]
      rfl

/-- The candidates of a membership are compared with its value. -/
theorem checkMembers_eq_ok {value : DataType} :
    checkCandidates value (ValueExpr.types nodes) = .ok () ↔ ∀ node ∈ nodes, ∃ type common,
      node.type = .ok type ∧ DataType.common? value type = some common := by
  simp only [checkCandidates, forM_eq_ok, types_eq_map, List.forall_mem_map, bind_eq_ok,
    common_eq_ok, pure_eq_ok, and_true]
  refine forall₂_congr fun node _ => exists_congr fun type => ?_
  constructor
  · rintro ⟨typed, common, meets⟩
    exact ⟨common, typed, meets⟩
  · rintro ⟨common, typed, meets⟩
    exact ⟨typed, common, meets⟩

theorem checkCandidates_cons {first : ValueExpr} {rest : List ValueExpr} :
    Call.checkCandidates ⟨span, name, ValueExpr.types (first :: rest)⟩ = .ok () ↔
      ∃ value, first.type = .ok value ∧ ∀ node ∈ rest, ∃ type common, node.type = .ok type ∧
        DataType.common? value type = some common := by
  simp only [Call.checkCandidates, ValueExpr.types, bind_eq_ok, forM_eq_ok, types_eq_map,
    List.forall_mem_map]
  refine exists_congr fun value => and_congr_right fun _ => ?_
  refine forall₂_congr fun node _ => exists_congr fun type => ?_
  cases DataType.common? value type <;> simp [pure, Except.pure]

theorem checkCandidates_eq_ok :
    Call.checkCandidates ⟨span, name, ValueExpr.types nodes⟩ = .ok () ↔
      ∃ first rest value, nodes = first :: rest ∧ first.type = .ok value ∧
        ∀ node ∈ rest, ∃ type common, node.type = .ok type ∧
          DataType.common? value type = some common := by
  cases nodes with
  | nil => simp [Call.checkCandidates, ValueExpr.types]
  | cons first rest => simp [checkCandidates_cons]

theorem checkStrings_eq_ok :
    checkStrings ⟨span, name, ValueExpr.types nodes⟩ = .ok () ↔
      ∀ index < nodes.length - 1, ∃ type,
        Call.expect ⟨span, name, ValueExpr.types nodes⟩ (index + 1) "a STRING" isString =
          .ok type := by
  simp only [checkStrings, forM_eq_ok, types_eq_map, List.length_map, List.mem_range, bind_eq_ok,
    pure_eq_ok, and_true]

/-! ### Aggregations -/

/-- An optional count is of an integral type. -/
def IntegralCount (node : Option ValueExpr) : Prop :=
  ∀ found, node = some found → ∃ type, found.type = .ok type ∧ type.isIntegral = true

theorem aggregation_type_eq_ok {op : AggregationOp} {count quanta : Option ValueExpr}
    {target : ValueExpr} {condition : Option BoolExpr} {scope : Option String}
    {scopePath : Option Path} {type : DataType} :
    (ValueExpr.aggregation span op count target condition scope quanta scopePath).type = .ok type ↔
      (∀ node, condition = some node → node.checkTypes = .ok ()) ∧ IntegralCount count ∧
        IntegralCount quanta ∧ aggregationType span op target target.type = .ok type := by
  rcases count with _ | count <;> rcases condition with _ | condition <;>
    rcases quanta with _ | quanta <;>
    simp [ValueExpr.type, IntegralCount, Unique.exists_iff, ← and_assoc]

end Typing

end EventQuery
