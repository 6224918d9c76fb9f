import EventQuery.Proofs.Rewriting
import EventQuery.Proofs.TypingRules

/-!
The static rules over parts whose types may have faded to `NULL`. Every rule but that of
arithmetic and that of `SUM` goes on to hold, with a result that has faded at most.
-/
namespace EventQuery

open Outcome DataType

/-- The second expression is typed whenever the first is, and its type has faded at most. -/
abbrev TypeFades (expr expr' : Expr) : Prop := Refines Fades expr.type expr'.type

namespace Typing

variable {span span' : Span}

/-! ### Predicates -/

theorem checkComparison_fades {op : Relation} {a b a' b' : DataType} (left : Fades a a')
    (right : Fades b b') (typed : checkComparison span op a b = .ok ()) :
    checkComparison span op a' b' = .ok () := by
  obtain ⟨type, meets, ordered⟩ := checkComparison_eq_ok.1 typed
  obtain ⟨type', meets', kept⟩ := common?_fades meets left right
  exact checkComparison_eq_ok.2 ⟨type', meets', fun orders => kept (ordered orders)⟩

/-- Three types that are compared with each other stay comparable when they fade. -/
theorem checkBounds_fades {value value' : DataType} {lower upper lower' upper' : Found}
    (fades : Fades value value') (first : Refines Fades lower lower')
    (second : Refines Fades upper upper') (typed : checkBounds span value lower upper = .ok ()) :
    checkBounds span value' lower' upper' = .ok () := by
  obtain ⟨low, inner, high, outer, typed, meets, typed', meets', ordered⟩ :=
    checkBounds_eq_ok.1 typed
  obtain ⟨low', found, fadesLow⟩ := first low typed
  obtain ⟨high', found', fadesHigh⟩ := second high typed'
  have upperOfValue := common?_through meets meets'
  have upperOfLow := common?_through (common?_comm value low ▸ meets) meets'
  obtain ⟨inner', meets, _⟩ := common?_fades meets fades fadesLow
  obtain ⟨outer', meets', ordered'⟩ :
      ∃ outer', common? inner' high' = some outer' ∧ outer' ≠ boolean := by
    rcases eq_or_eq_of_common? meets with rfl | rfl
    · obtain ⟨type, meets, kept⟩ := upperOfValue
      obtain ⟨type', meets', kept'⟩ := common?_fades meets fades fadesHigh
      exact ⟨type', meets', kept' (kept ordered)⟩
    · obtain ⟨type, meets, kept⟩ := upperOfLow
      obtain ⟨type', meets', kept'⟩ := common?_fades meets fadesLow fadesHigh
      exact ⟨type', meets', kept' (kept ordered)⟩
  exact checkBounds_eq_ok.2 ⟨low', inner', high', outer', found, meets, found', meets', ordered'⟩

/-- Nodes whose types have faded at most, in turn. -/
abbrev AllFade (nodes nodes' : List ValueExpr) : Prop :=
  List.Forall₂ (fun node node' => TypeFades (.value node) (.value node')) nodes nodes'

/-- What can be compared with a value can be when both have faded. -/
private theorem comparable_fades {value value' : DataType} {nodes nodes' : List ValueExpr}
    (fades : Fades value value') (allFade : AllFade nodes nodes')
    (typed : ∀ node ∈ nodes, ∃ type common, node.type = .ok type ∧
      common? value type = some common) :
    ∀ node' ∈ nodes', ∃ type common, node'.type = .ok type ∧ common? value' type = some common := by
  intro node' member
  obtain ⟨node, listed, nodeFades⟩ := exists_of_mem_right allFade member
  obtain ⟨type, common, typed, meets⟩ := typed node listed
  obtain ⟨type', typed', typeFades⟩ := nodeFades type typed
  obtain ⟨common', meets', _⟩ := common?_fades meets fades typeFades
  exact ⟨type', common', typed', meets'⟩

theorem checkMembers_fades {value value' : DataType} {nodes nodes' : List ValueExpr}
    (fades : Fades value value') (allFade : AllFade nodes nodes')
    (typed : checkCandidates value (ValueExpr.types nodes) = .ok ()) :
    checkCandidates value' (ValueExpr.types nodes') = .ok () :=
  checkMembers_eq_ok.2 (comparable_fades fades allFade (checkMembers_eq_ok.1 typed))

theorem checkVector_fades {value value' : DataType} {vector vector' : ValueExpr}
    (fades : Fades value value') (same : vector'.resolved? = vector.resolved?)
    (typeFades : TypeFades (.value vector) (.value vector'))
    (typed : checkVector span value vector vector.type = .ok ()) :
    checkVector span value' vector' vector'.type = .ok () := by
  obtain ⟨isVector, type, common, found, meets⟩ := checkVector_eq_ok.1 typed
  obtain ⟨type', found', fades'⟩ := typeFades type found
  obtain ⟨common', meets', _⟩ := common?_fades meets fades fades'
  exact checkVector_eq_ok.2 ⟨same ▸ isVector, type', common', found', meets'⟩

theorem checkPredicate_fades {type type' : DataType} (fades : Fades type type')
    (typed : checkPredicate span type = .ok ()) : checkPredicate span type' = .ok () := by
  rw [checkPredicate_eq_ok] at typed ⊢
  rcases fades with rfl | rfl
  · exact typed
  · exact .inl (.inr rfl)

/-! ### Operators -/

theorem unaryType_fades {sign : Sign} {operand operand' type : DataType}
    (fades : Fades operand operand') (typed : unaryType span sign operand = .ok type) :
    ∃ type', unaryType span sign operand' = .ok type' ∧ Fades type type' := by
  obtain ⟨accepted, rfl⟩ := unaryType_eq_ok.1 typed
  refine ⟨operand', unaryType_eq_ok.2 ⟨?_, rfl⟩, fades⟩
  rcases fades with rfl | rfl
  · exact accepted
  · exact .inr rfl

theorem castType_fades {target operand operand' type : DataType} (fades : Fades operand operand')
    (typed : castType span target operand = .ok type) :
    castType span target operand' = .ok type := by
  obtain ⟨legal, rfl⟩ := castType_eq_ok.1 typed
  refine castType_eq_ok.2 ⟨?_, rfl⟩
  rcases fades with rfl | rfl
  · exact legal
  · cases target <;> first | rfl | (cases operand <;> exact legal)

theorem conversionType_fades {kind : Conversion} {operand operand' type : DataType}
    (fades : Fades operand operand') (typed : conversionType span kind operand = .ok type) :
    conversionType span kind operand' = .ok type := by
  obtain ⟨accepted, rfl⟩ := conversionType_eq_ok.1 typed
  rcases fades with rfl | rfl
  · exact typed
  · exact conversionType_eq_ok.2 ⟨.inr rfl, rfl⟩

theorem quantumType_fades {taken : Quantum} {operand operand' type : DataType}
    (fades : Fades operand operand') (typed : quantumType span taken operand = .ok type) :
    quantumType span taken operand' = .ok type := by
  obtain ⟨accepted, rfl⟩ := quantumType_eq_ok.1 typed
  rcases fades with rfl | rfl
  · exact typed
  · exact quantumType_eq_ok.2 ⟨.inr rfl, rfl⟩

/-! ### Calls -/

section Calls

variable {name : String} {nodes nodes' : List ValueExpr}

theorem expect_fades (allFade : AllFade nodes nodes') {index : Nat} {expected : String}
    {accepts : DataType → Bool} {type : DataType}
    (typed : Call.expect ⟨span, name, ValueExpr.types nodes⟩ index expected accepts = .ok type) :
    ∃ type',
      Call.expect ⟨span, name, ValueExpr.types nodes'⟩ index expected accepts = .ok type' := by
  obtain ⟨node, found, typed, accepted⟩ := expect_eq_ok.1 typed
  have related := getElem?_rel allFade index
  rw [found] at related
  generalize found' : nodes'[index]? = node' at related
  cases related with
  | some typeFades =>
    obtain ⟨type', typed', fades⟩ := typeFades type typed
    refine ⟨type', expect_eq_ok.2 ⟨_, found', typed', ?_⟩⟩
    rcases fades with rfl | rfl
    · exact accepted
    · exact .inl rfl

theorem checkCandidates_fades (allFade : AllFade nodes nodes')
    (typed : Call.checkCandidates ⟨span, name, ValueExpr.types nodes⟩ = .ok ()) :
    Call.checkCandidates ⟨span, name, ValueExpr.types nodes'⟩ = .ok () := by
  obtain ⟨first, rest, value, rfl, typed, comparable⟩ := checkCandidates_eq_ok.1 typed
  obtain ⟨first', rest', firstFades, restFade, rfl⟩ := List.forall₂_cons_left_iff.1 allFade
  obtain ⟨value', typed', fades⟩ := firstFades value typed
  exact checkCandidates_eq_ok.2
    ⟨first', rest', value', rfl, typed', comparable_fades fades restFade comparable⟩

theorem checkStrings_fades (allFade : AllFade nodes nodes')
    (typed : checkStrings ⟨span, name, ValueExpr.types nodes⟩ = .ok ()) :
    checkStrings ⟨span, name, ValueExpr.types nodes'⟩ = .ok () := by
  refine checkStrings_eq_ok.2 fun index small => ?_
  rw [← allFade.length_eq] at small
  obtain ⟨type, typed⟩ := checkStrings_eq_ok.1 typed index small
  exact expect_fades allFade typed

/-- A call has the type of its function, whatever its arguments fade to. -/
theorem callType_fades {binding : Binding} {type : DataType} (allFade : AllFade nodes nodes')
    (typed : callType ⟨span, name, ValueExpr.types nodes⟩ binding = .ok type) :
    callType ⟨span, name, ValueExpr.types nodes'⟩ binding = .ok type := by
  unfold callType at typed ⊢
  split at typed
  case h_1 | h_3 =>
    simp only [bind_eq_ok, pure_eq_ok] at typed ⊢
    obtain ⟨_, typed, rfl⟩ := typed
    obtain ⟨type', typed'⟩ := expect_fades allFade typed
    exact ⟨type', typed', rfl⟩
  case h_2 =>
    simp only [bind_eq_ok, pure_eq_ok] at typed ⊢
    obtain ⟨_, typed, _, strings, rfl⟩ := typed
    obtain ⟨type', typed'⟩ := expect_fades allFade typed
    exact ⟨type', typed', (), checkStrings_fades allFade strings, rfl⟩
  case h_4 =>
    simp only [bind_eq_ok, pure_eq_ok] at typed ⊢
    obtain ⟨_, candidates, rfl⟩ := typed
    exact ⟨(), checkCandidates_fades allFade candidates, rfl⟩
  case h_5 =>
    simp only [bind_eq_ok, pure_eq_ok] at typed ⊢
    obtain ⟨_, typed, _, candidates, rfl⟩ := typed
    obtain ⟨type', typed'⟩ := expect_fades allFade typed
    exact ⟨type', typed', (), checkCandidates_fades allFade candidates, rfl⟩
  case h_6 | h_7 | h_8 => exact typed
  case h_9 => cases typed

end Calls

/-! ### Aggregations -/

/-- Apart from the sum of `DOUBLE` values, an aggregation of values that have faded has
the type it had, or one that has faded too. -/
theorem aggregationType_fades {op : AggregationOp} {target target' : ValueExpr} {type : DataType}
    (same : target'.resolved? = target.resolved?)
    (fades : TypeFades (.value target) (.value target'))
    (summed : op = .sum → target.type = .ok .double → target'.type ≠ .ok .null)
    (typed : aggregationType span op target target.type = .ok type) :
    ∃ type', aggregationType span op target' target'.type = .ok type' ∧ Fades type type' := by
  cases op <;> simp only [aggregationType] at typed ⊢
  case count | unique =>
    rw [same]
    split at typed
    case isTrue isRelation =>
      rw [if_pos isRelation]
      exact ⟨type, typed, .rfl⟩
    case isFalse isValue =>
      rw [if_neg isValue]
      simp only [bind_eq_ok, pure_eq_ok] at typed ⊢
      obtain ⟨found, typed, rfl⟩ := typed
      obtain ⟨found', typed', _⟩ := fades found typed
      exact ⟨.long, ⟨found', typed', rfl⟩, .rfl⟩
  case sum =>
    simp only [bind_eq_ok] at typed ⊢
    obtain ⟨found, typed, sums⟩ := typed
    obtain ⟨found', typed', fades⟩ := fades found typed
    refine ⟨type, ⟨found', typed', ?_⟩, .rfl⟩
    rcases fades with rfl | rfl
    · exact sums
    · have number : found ≠ .double := fun same => summed rfl (same ▸ typed) typed'
      cases found <;> simp [isNumeric, rank?, pure, Except.pure] at sums number ⊢ <;> exact sums
  case min | max | top =>
    simp only [bind_eq_ok] at typed ⊢
    obtain ⟨found, typed, ordered⟩ := typed
    obtain ⟨found', typed', fades⟩ := fades found typed
    split at ordered
    case isTrue => cases ordered
    case isFalse accepted =>
      obtain rfl := pure_eq_ok.1 ordered
      refine ⟨found', ⟨found', typed', ?_⟩, fades⟩
      rcases fades with rfl | rfl
      · rw [if_neg accepted]
        rfl
      · rfl

end Typing

end EventQuery
