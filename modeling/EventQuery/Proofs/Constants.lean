import EventQuery.Constant.Cast
import EventQuery.Constant.Operations
import EventQuery.Proofs.Fading
import EventQuery.Proofs.Outcome

/-!
Operations on constants of known types. On operands that the types admit, an operation
either gives a constant of the type it states, or fails for a reason that lies in the
values; it never finds the types at fault.
-/
namespace EventQuery

open Outcome DataType

namespace ConstantError

/-- Causes that lie in the values of the operands. -/
inductive IsOfValues : ConstantError → Prop where
  | unreadable {text target} : IsOfValues (.unreadable text target)
  | divisionByZero : IsOfValues .divisionByZero
  | noLocalTime {ms zone} : IsOfValues (.noLocalTime ms zone)
  | overflow {type} : IsOfValues (.overflow type)

/-- Causes that lie in the types of the operands. -/
inductive IsOfTypes : ConstantError → Prop where
  | mismatch {operation left right} : IsOfTypes (.mismatch operation left right)
  | illegalCast {source target} : IsOfTypes (.illegalCast source target)

end ConstantError

namespace Constant

/-- A constant of the type, or `NULL` in its place. -/
def Fits (type : DataType) (constant : Constant) : Prop := type.Fades constant.type

/-- An operation gives a constant that fits the type, or fails because of the values. -/
abbrev Sound (type : DataType) (result : Except ConstantError Constant) : Prop :=
  Ends (Fits type) ConstantError.IsOfValues result

theorem type_eq_null {constant : Constant} : constant.type = .null ↔ constant = null := by
  cases constant <;> simp [type]

theorem isNull_iff {constant : Constant} : constant.isNull = true ↔ constant.type = .null := by
  cases constant <;> simp [type, isNull]

namespace Fits

variable {type : DataType} {constant : Constant}

theorem null : Fits type null := .inr rfl

theorem type_eq (fits : Fits type constant) (known : constant.isNull = false) :
    constant.type = type :=
  fits.eq_of_ne fun absent => by simp [isNull_iff.2 absent] at known

end Fits

/-! ### Payloads -/

theorem float?_isSome {constant : Constant} (numeric : constant.type.isNumeric = true) :
    ∃ number, constant.float? = some number := by
  cases constant <;> first | exact ⟨_, rfl⟩ | cases numeric

theorem integral?_isSome {constant : Constant}
    (word : constant.type.isIntegral = true ∨ constant.type = .datetime) :
    ∃ number, constant.integral? = some number := by
  cases constant <;> first | exact ⟨_, rfl⟩ | simp [type, isIntegral] at word

/-! ### Comparison -/

/-- Two constants other than `NULL` whose types have a common one are both texts, both
truth values, or have payloads of the common type. -/
theorem ordering_eq_ok {a b : Constant} {type : DataType}
    (common : common? a.type b.type = some type) : ∃ found, ordering a b = .ok found := by
  cases a <;> cases b <;>
    simp [ordering, Constant.type, common?, rank?, isIntegral, isNull, float?, integral?, pure,
      Except.pure] at common ⊢

theorem compareBy_eq_ok {op : Relation} {a b : Constant} {type : DataType}
    (common : common? a.type b.type = some type)
    (ordered : op.isOrdering = true → type ≠ .boolean) :
    ∃ truth, compareBy op a b = .ok truth := by
  have meets : ¬(type = .boolean ∧ op.isOrdering = true) := by
    rintro ⟨same, orders⟩
    exact ordered orders same
  obtain ⟨found, finds⟩ := ordering_eq_ok common
  simp only [compareBy, common, meets, if_false, finds]
  split
  · exact ⟨_, rfl⟩
  · exact ⟨_, rfl⟩

/-- Constants that fit types with a common one can be compared. -/
theorem Fits.compareBy_eq_ok {op : Relation} {a b : Constant} {left right type : DataType}
    (first : Fits left a) (second : Fits right b) (common : common? left right = some type)
    (ordered : op.isOrdering = true → type ≠ .boolean) : ∃ truth, compareBy op a b = .ok truth := by
  obtain ⟨type', common', kept⟩ := common?_fades common first second
  exact Constant.compareBy_eq_ok common' fun orders => kept (ordered orders)

/-! ### Arithmetic -/

theorem orOverflow_sound {α : Type} {type type' : DataType} {make : α → Constant}
    (made : ∀ word, (make word).type = type) (found : Option α) :
    Sound type (orOverflow type' make found) := by
  cases found with
  | none => exact .overflow
  | some word => exact .inl (made word)

theorem floatArithmetic_ends (op : Arithmetic) (a b : Float) :
    Ends (fun _ => True) ConstantError.IsOfValues (floatArithmetic op a b) := by
  cases op <;> simp only [floatArithmetic]
  case divide | modulo => split <;> first | exact .divisionByZero | trivial
  all_goals trivial

theorem checked_ends (type : DataType) (value : Int) :
    Ends (fun _ => True) ConstantError.IsOfValues (checked type value) := by
  unfold checked
  split
  · trivial
  · exact .overflow

theorem integralArithmetic_ends (op : Arithmetic) (type : DataType) (a b : Int) :
    Ends (fun _ => True) ConstantError.IsOfValues (integralArithmetic op type a b) := by
  have result : Ends (fun _ => True) ConstantError.IsOfValues (integralResult op a b) := by
    cases op <;> simp only [integralResult]
    case divide | modulo => split <;> first | exact .divisionByZero | trivial
    all_goals trivial
  refine result.bind fun value _ => ?_
  split
  · exact (checked_ends type _).bind fun _ _ => checked_ends type value
  · exact checked_ends type value

/-- An operator gives a constant of the type that the static rule states. -/
theorem Fits.operate_sound {op : Arithmetic} {a b : Constant} {left right type : DataType}
    (first : Fits left a) (second : Fits right b) (typed : op.type? left right = some type) :
    Sound type (operate op a b) := by
  obtain ⟨type', typed'⟩ := Arithmetic.type?_fades typed first second
  simp only [operate, typed']
  split
  case isTrue => exact .null
  case isFalse known =>
    simp only [Bool.or_eq_true, not_or, Bool.not_eq_true] at known
    obtain rfl := first.type_eq known.1
    obtain rfl := second.type_eq known.2
    obtain rfl : type' = type := Option.some.inj (typed'.symm.trans typed)
    have present {constant : Constant} (known : constant.isNull = false) :
        constant.type ≠ .null := fun absent => by simp [isNull_iff.2 absent] at known
    obtain ⟨rfl, numeric, numeric'⟩ | ⟨rfl | rfl, word, word'⟩ :=
      Arithmetic.operands_of_type? typed (present known.1) (present known.2)
    · obtain ⟨number, found⟩ := float?_isSome numeric
      obtain ⟨number', found'⟩ := float?_isSome numeric'
      simp only [found, found']
      exact (floatArithmetic_ends op number number').bind fun _ _ => .inl rfl
    · obtain ⟨number, found⟩ := integral?_isSome word
      obtain ⟨number', found'⟩ := integral?_isSome word'
      simp only [found, found']
      exact (integralArithmetic_ends op .long number number').bind fun _ _ => .inl rfl
    · obtain ⟨number, found⟩ := integral?_isSome word
      obtain ⟨number', found'⟩ := integral?_isSome word'
      simp only [found, found']
      exact (integralArithmetic_ends op .datetime number number').bind fun _ _ => .inl rfl

theorem Fits.negate_sound {constant : Constant} {type : DataType} (fits : Fits type constant)
    (numeric : type.isNumeric = true ∨ type = .null) : Sound type constant.negate := by
  rcases fits with rfl | absent
  · cases constant <;> unfold negate
    case boolean | string | datetime => simp [Constant.type, isNumeric, rank?] at numeric
    case null => exact .null
    case double => exact .inl rfl
    all_goals
      refine orOverflow_sound (fun _ => ?_) _
      rfl
  · obtain rfl := type_eq_null.1 absent
    exact .null

/-! ### Conversion -/

theorem ofIntegral_sound (value : Int) {target : DataType} (target_ne : target ≠ .null) :
    Sound target (ofIntegral value target) := by
  cases target <;> simp only [ofIntegral]
  case null => exact absurd rfl target_ne
  case boolean | double | string => exact .inl rfl
  all_goals
    refine orOverflow_sound (fun _ => ?_) _
    rfl

theorem ofText_sound (text : String) {target : DataType} (target_ne : target ≠ .null) :
    Sound target (ofText text target) := by
  unfold ofText
  cases target <;> simp only
  case null => exact absurd rfl target_ne
  case string => exact .inl rfl
  case boolean | double | datetime =>
    split
    · exact .inl rfl
    · exact .unreadable
  all_goals
    split
    · exact ofIntegral_sound _ target_ne
    · exact .unreadable

theorem truncated_ends (value : Float) (target : DataType) :
    Ends (fun _ => True) ConstantError.IsOfValues (truncated value target) := by
  unfold truncated
  split
  · trivial
  · exact .overflow

/-- A cast that the static rule admits gives a constant of its target. -/
theorem Fits.cast_sound {constant : Constant} {source target : DataType}
    (fits : Fits source constant) (legal : isLegalCast source target = true) :
    Sound target (constant.cast target) := by
  have target_ne : target ≠ .null := by
    rintro rfl
    simp [isLegalCast] at legal
  unfold cast
  rw [if_neg target_ne]
  split
  case isTrue same => exact .inl same
  case isFalse =>
    rcases fits with rfl | absent
    · cases constant <;> simp only
      case null => exact .null
      case string => exact ofText_sound _ target_ne
      case boolean =>
        cases target <;> simp [isLegalCast, Constant.type] at legal
        all_goals first
          | exact .inl rfl
          | exact ofIntegral_sound _ target_ne
      case double =>
        split
        · exact .inl rfl
        · exact .inl rfl
        · exact (truncated_ends _ target).bind fun _ _ => ofIntegral_sound _ target_ne
      case datetime =>
        cases target <;> simp [isLegalCast, Constant.type] at legal
        case string =>
          simp only
          split
          · exact .inl rfl
          · exact .overflow
        all_goals exact ofIntegral_sound _ target_ne
      all_goals exact ofIntegral_sound _ target_ne
    · obtain rfl := type_eq_null.1 absent
      exact .null

end Constant

end EventQuery
