import EventQuery.Proofs.CallSoundness
import EventQuery.Proofs.FadingRules
import EventQuery.Proofs.KnownPasses

/-!
Types of values that are known at compile time. Validation does not change the type of such a value,
and whatever it reduces to resembles it: the position that `enum` finds may be a `LONG` where an
`INTEGER` is stated, and no rule between types can tell the two apart.
-/
namespace EventQuery

open Outcome

/-! ### Types that stand for each other -/

namespace DataType

/-- A constant of the second type may stand for a value of the first. -/
def Resembles (type found : DataType) : Prop :=
  type.Fades found ∨ type.isIntegral = true ∧ found.isIntegral = true

namespace Resembles

variable {type found : DataType}

theorem of_fades (fades : type.Fades found) : Resembles type found := .inl fades

theorem eq_or_integral (resembles : Resembles type found) (present : found ≠ null) :
    found = type ∨ type.isIntegral = true ∧ found.isIntegral = true :=
  resembles.imp_left fun fades => fades.eq_of_ne present

theorem fades {faded : DataType} (resembles : Resembles type found) (fades : found.Fades faded) :
    Resembles type faded := by
  rcases fades with rfl | rfl
  · exact resembles
  · exact .inl (.inr rfl)

end Resembles

theorem isNumeric_of_isIntegral {type : DataType} (integral : type.isIntegral = true) :
    type.isNumeric = true := by
  cases type <;> first | rfl | cases integral

/-- An integral type is compared as `LONG` is. -/
private theorem isSome_common?_of_integral {a : DataType} (b : DataType)
    (integral : a.isIntegral = true) : (common? a b).isSome = (common? long b).isSome :=
  have table : ∀ a ∈ all, a.isIntegral = true → ∀ b ∈ all,
      (common? a b).isSome = (common? long b).isSome := by decide
  table a (mem_all a) integral b (mem_all b)

private theorem isSome_common?_left {a a' : DataType} (b : DataType) (left : Resembles a a')
    (meets : (common? a b).isSome = true) : (common? a' b).isSome = true := by
  rcases left with (rfl | rfl) | ⟨integral, integral'⟩
  · exact meets
  · rw [common?_null_left]
    rfl
  · rwa [isSome_common?_of_integral b integral', ← isSome_common?_of_integral b integral]

/-- What can be compared still can be in constants that stand for it. -/
theorem common?_resembles {a a' b b' : DataType} (left : Resembles a a') (right : Resembles b b')
    (meets : (common? a b).isSome = true) : (common? a' b').isSome = true := by
  have meets := isSome_common?_left b left meets
  rw [common?_comm] at meets ⊢
  exact isSome_common?_left a' right meets

end DataType

namespace Arithmetic

open DataType

/-- An integral operand counts as a `LONG`. -/
private theorem type?_of_integral (op : Arithmetic) {a : DataType} (b : DataType)
    (integral : a.isIntegral = true) :
    op.type? a b = op.type? long b ∧ op.type? b a = op.type? b long :=
  have table : ∀ op ∈ all, ∀ a ∈ DataType.all, a.isIntegral = true → ∀ b ∈ DataType.all,
      op.type? a b = op.type? long b ∧ op.type? b a = op.type? b long := by decide
  table op (mem_all op) a (DataType.mem_all a) integral b (DataType.mem_all b)

/-- The result is of the same type for all constants that stand for the operands, but `NULL`. -/
theorem type?_resembles {op : Arithmetic} {a a' b b' : DataType} (left : Resembles a a')
    (right : Resembles b b') (present : a' ≠ null) (present' : b' ≠ null) :
    op.type? a' b' = op.type? a b := by
  have first : op.type? a' b' = op.type? a b' := by
    rcases left.eq_or_integral present with rfl | ⟨integral, integral'⟩
    · rfl
    · rw [(type?_of_integral op b' integral').1, (type?_of_integral op b' integral).1]
  rcases right.eq_or_integral present' with rfl | ⟨integral, integral'⟩
  · exact first
  · rw [first, (type?_of_integral op a integral').2, (type?_of_integral op a integral).2]

end Arithmetic

/-! ### Validation -/

namespace Typing

variable {span : Span} {name : String}

/-- The type of a known call does not depend on what is kept for it. -/
theorem callType_of_isConstantCall {call : Call} {binding binding' : Binding} {known : List Bool}
    (same : binding'.function = binding.function)
    (constant : Reduce.isConstantCall binding.function known = true) :
    callType call binding' = callType call binding := by
  unfold callType
  rw [same]
  cases asked : binding.function <;> first | rfl | simp [asked, Reduce.isConstantCall] at constant

end Typing

namespace Expr.ValidatesTo

/-- Validation decides nothing about the type of a known value. -/
theorem type_iff [ZoneTable] {node node' : ValueExpr} {type : DataType}
    (valid : node.validate = .ok node')
    (known : node.isConstant = true) : node'.type = .ok type ↔ node.type = .ok type := by
  generalize same : Expr.value node = expr
  induction expr using Expr.byChildren generalizing node node' type with
  | node expr ih =>
    subst same
    have part {part part' : ValueExpr} {type : DataType}
        (member : .value part ∈ (Expr.value node).children) (valid : part.validate = .ok part') :
        part'.type = .ok type ↔ part.type = .ok type := by
      have knownPart := (ValueExpr.isConstant_child known member).1
      exact ih _ member valid knownPart rfl
    cases node
    case path => cases known
    case parameter => cases known
    case aggregation => cases known
    case now => cases known
    case constant =>
      cases valid
      rfl
    case binary =>
      simp only [ValueExpr.validate, bind_eq_ok, pure_eq_ok, Stopped.within_eq_ok] at valid
      obtain ⟨left', first, right', second, rfl⟩ := valid
      simp only [ValueExpr.type, bind_eq_ok, part List.mem_cons_self first,
        part (List.mem_cons_of_mem _ List.mem_cons_self) second]
    case unary | cast | conversion =>
      simp only [ValueExpr.validate, bind_eq_ok, pure_eq_ok, Stopped.within_eq_ok] at valid
      obtain ⟨operand', only, rfl⟩ := valid
      simp only [ValueExpr.type, bind_eq_ok, part (List.mem_singleton_self _) only]
    case quantum span taken operand zone found =>
      obtain ⟨operand', found', only, rfl⟩ : ∃ operand' found', operand.validate = .ok operand' ∧
          node' = .quantum span taken operand' zone found' := by
        rcases zone with _ | zone <;>
          simp only [ValueExpr.validate, bind_eq_ok, pure_eq_ok, Stopped.within_eq_ok] at valid
        · obtain ⟨operand', only, rfl⟩ := valid
          exact ⟨operand', found, only, rfl⟩
        · obtain ⟨operand', only, found', _, rfl⟩ := valid
          exact ⟨operand', some found', only, rfl⟩
      simp only [ValueExpr.type, bind_eq_ok, part (List.mem_singleton_self _) only]
    case call span name arguments binding =>
      rcases binding with _ | binding
      · cases known
      obtain ⟨arguments', binding', all, checked, rfl⟩ := (Validate.call_eq_ok
        (Validate.validatesArguments_of_isConstantCall known)).1 valid
      have kept : List.Forall₂ (fun node node' => ∀ type,
          node'.type = .ok type ↔ node.type = .ok type) arguments arguments' :=
        forall₂_imp_of_mem (fun _ listed _ valid _ => part (List.mem_map_of_mem listed) valid) all
      have forward : Typing.AllFade arguments arguments' :=
        kept.imp fun _ _ same type typed => ⟨type, (same type).2 typed, .rfl⟩
      have backward : Typing.AllFade arguments' arguments :=
        (kept.imp fun _ _ same type typed => ⟨type, (same type).1 typed, .rfl⟩).flip
      simp only [ValueExpr.type]
      rw [Typing.callType_of_isConstantCall (Validate.checkCall_function checked) known]
      exact ⟨Typing.callType_fades backward, Typing.callType_fades forward⟩

end Expr.ValidatesTo

/-! ### Reduction -/

namespace Constant

open DataType

variable {constant result : Constant}

/-- Whatever a cast gives is of its target, or `NULL`. -/
theorem fits_of_cast {target : DataType} (casts : constant.cast target = .ok result) :
    Fits target result := by
  by_cases legal : isLegalCast constant.type target = true
  · have sound := Fits.cast_sound (.inl rfl) legal
    rwa [casts] at sound
  · cases constant <;> cases target <;>
      first | exact absurd rfl legal | (simp [cast, Constant.type] at casts)

theorem fits_of_orOverflow {α : Type} {type type' : DataType} {make : α → Constant}
    {found : Option α} (made : ∀ word, (make word).type = type)
    (gives : orOverflow type' make found = .ok result) : Fits type result := by
  have sound : Sound type (orOverflow type' make found) := orOverflow_sound made found
  rwa [gives] at sound

/-- Operators give what the static rule states for the types that their operands stand for. -/
theorem fits_of_operate {op : Arithmetic} {a b : Constant} {left right type : DataType}
    (first : left.Resembles a.type) (second : right.Resembles b.type)
    (typed : op.type? left right = some type) (operates : operate op a b = .ok result) :
    Fits type result := by
  by_cases absent : (a.isNull || b.isNull) = true
  · have isNull : result = null := by
      simp only [operate, absent, if_true] at operates
      split at operates
      · exact (Except.ok.inj operates).symm
      · cases operates
    exact isNull ▸ .null
  · simp only [Bool.or_eq_true, isNull_iff, not_or] at absent
    rw [← Arithmetic.type?_resembles first second absent.1 absent.2] at typed
    have sound := Fits.operate_sound (.inl rfl) (.inl rfl) typed
    rwa [operates] at sound

theorem fits_of_negate {type : DataType} (resembles : type.Resembles constant.type)
    (accepted : type.isNumeric = true ∨ type = .null) (negates : constant.negate = .ok result) :
    type.Resembles result.type := by
  have numeric : constant.type.isNumeric = true ∨ constant.type = .null := by
    rcases resembles with (same | absent) | ⟨-, integral⟩
    · rwa [same]
    · exact .inr absent
    · exact .inl (isNumeric_of_isIntegral integral)
  have sound := Fits.negate_sound (.inl rfl) numeric
  rw [negates] at sound
  exact resembles.fades sound

end Constant

namespace Reduce

open Constant

variable {span : Span} {result : Constant}

theorem fits_of_converted {kind : Conversion} {operand : Constant}
    (converts : converted span kind operand = .ok result) : Fits kind.result result := by
  unfold converted at converts
  split at converts
  case isTrue =>
    obtain rfl := pure_eq_ok.1 converts
    exact .null
  case isFalse =>
    cases kind
    case toDatetime => exact fits_of_cast (orFault_eq_ok.1 converts)
    case toMillis => exact fits_of_cast (orFault_eq_ok.1 converts)
    all_goals
      obtain ⟨count, -, given⟩ := bind_eq_ok.1 converts
      refine fits_of_orOverflow (fun word => ?_) (orFault_eq_ok.1 given)
      rfl

theorem fits_of_quantumConstant {taken : Quantum} {zone : Option TimeZone} {operand : Constant}
    (takes : quantumConstant span taken zone operand = .ok result) : Fits taken.result result := by
  unfold quantumConstant at takes
  split at takes
  case h_1 =>
    obtain rfl := Except.ok.inj takes
    exact .null
  case h_2 ms =>
    have sound := quantized_sound taken ms.toInt (zone.getD .utc)
    rwa [(quantumConstant_datetime_eq_ok.1 takes).2] at sound
  case h_3 => cases takes

/-- A position is found as an integer, whether it fits an `INTEGER` or not. -/
theorem isIntegral_of_enumIndex {value : Constant} {candidates : List Constant} {index : Nat}
    (finds : enumIndex span value index candidates = .ok result) :
    result.type.isIntegral = true := by
  induction candidates generalizing index with
  | nil =>
    obtain rfl := Except.ok.inj finds
    rfl
  | cons candidate rest ih =>
    simp only [enumIndex, bind_eq_ok] at finds
    obtain ⟨equal, -, finds⟩ := finds
    split at finds
    · obtain rfl := pure_eq_ok.1 finds
      unfold Constant.ofInteger
      split <;> rfl
    · exact ih finds

theorem exists_integer_of_splitBucket {value : Constant} {boundaries : List Constant}
    {bucket : Int32} (counts : splitBucket span value bucket boundaries = .ok result) :
    ∃ count, result = .integer count := by
  induction boundaries generalizing bucket with
  | nil => exact ⟨bucket, (Except.ok.inj counts).symm⟩
  | cons boundary rest ih =>
    obtain ⟨below, -, counts⟩ := bind_eq_ok.1 counts
    exact ih counts

/-- What a call reduces to resembles the type that its function states. -/
theorem resembles_of_callConstant {typing : Typing.Call} {call : Call} {binding : Binding}
    {type : DataType} (typed : Typing.callType typing binding = .ok type)
    (reduces : callConstant call binding = .ok result) : type.Resembles result.type := by
  obtain ⟨function, state⟩ := binding
  cases function <;>
    simp only [callConstant, Typing.callType, bind_eq_ok, pure_eq_ok, orFault_eq_ok]
      at reduces typed
  case parseDatetime | epochMillis =>
    obtain ⟨-, -, rfl⟩ := typed
    obtain ⟨value, -, casts⟩ := reduces
    exact .of_fades (fits_of_cast casts)
  case formatDatetime =>
    obtain ⟨-, -, -, -, rfl⟩ := typed
    simp only [formatted, bind_eq_ok] at reduces
    obtain ⟨instant, -, format, -, writes⟩ := reduces
    split at writes
    · obtain rfl := pure_eq_ok.1 writes
      exact .of_fades Fits.null
    · split at writes
      · split at writes
        · obtain rfl := pure_eq_ok.1 writes
          exact .of_fades .rfl
        · cases writes
      · cases writes
  case enum =>
    obtain ⟨-, -, rfl⟩ := typed
    obtain ⟨value, -, candidates, -, finds⟩ := reduces
    exact .inr ⟨rfl, isIntegral_of_enumIndex finds⟩
  case split =>
    obtain ⟨-, -, -, -, rfl⟩ := typed
    obtain ⟨value, -, counts⟩ := reduces
    split at counts
    · obtain rfl := pure_eq_ok.1 counts
      exact .of_fades Fits.null
    · obtain ⟨boundaries, -, counts⟩ := bind_eq_ok.1 counts
      obtain ⟨count, rfl⟩ := exists_integer_of_splitBucket counts
      exact .of_fades .rfl
  all_goals cases reduces

end Reduce

/-- A value that is typed reduces to something that resembles its type. -/
theorem ValueExpr.resembles_of_reduce {node : ValueExpr} {type : DataType} {constant : Constant}
    (typed : node.type = .ok type) (reduces : node.reduce = .ok constant) :
    type.Resembles constant.type := by
  generalize same : Expr.value node = expr
  induction expr using Expr.byChildren generalizing node type constant with
  | node expr ih =>
    subst same
    cases node
    case path => cases reduces
    case parameter => cases reduces
    case aggregation => cases reduces
    case now => cases reduces
    case constant span value =>
      cases typed
      cases reduces
      exact .of_fades .rfl
    case binary =>
      simp only [ValueExpr.type, reduce, bind_eq_ok, Typing.binaryType_eq_ok, Reduce.orFault_eq_ok]
        at typed reduces
      obtain ⟨left, typedLeft, right, typedRight, combines⟩ := typed
      obtain ⟨a, first, b, second, operates⟩ := reduces
      have resembles := ih _ List.mem_cons_self typedLeft first rfl
      have resembles' := ih _ (List.mem_cons_of_mem _ List.mem_cons_self) typedRight second rfl
      exact .of_fades (Constant.fits_of_operate resembles resembles' combines operates)
    case unary span sign operand =>
      simp only [ValueExpr.type, reduce, bind_eq_ok, Typing.unaryType_eq_ok] at typed reduces
      obtain ⟨_, typedOperand, accepted, rfl⟩ := typed
      obtain ⟨value, only, signs⟩ := reduces
      have resembles := ih _ (List.mem_singleton_self _) typedOperand only rfl
      cases sign with
      | plus =>
        obtain rfl := Except.ok.inj signs
        exact resembles
      | minus => exact Constant.fits_of_negate resembles accepted (Reduce.orFault_eq_ok.1 signs)
    case cast =>
      simp only [ValueExpr.type, reduce, bind_eq_ok, Typing.castType_eq_ok, Reduce.orFault_eq_ok]
        at typed reduces
      obtain ⟨_, -, -, rfl⟩ := typed
      obtain ⟨value, -, casts⟩ := reduces
      exact .of_fades (Constant.fits_of_cast casts)
    case conversion =>
      simp only [ValueExpr.type, reduce, bind_eq_ok, Typing.conversionType_eq_ok] at typed reduces
      obtain ⟨_, -, -, rfl⟩ := typed
      obtain ⟨value, -, converts⟩ := reduces
      exact .of_fades (Reduce.fits_of_converted converts)
    case quantum =>
      simp only [ValueExpr.type, reduce, bind_eq_ok, Typing.quantumType_eq_ok] at typed reduces
      obtain ⟨_, -, -, rfl⟩ := typed
      obtain ⟨value, -, takes⟩ := reduces
      exact .of_fades (Reduce.fits_of_quantumConstant takes)
    case call span name arguments binding =>
      rcases binding with _ | binding
      · cases reduces
      exact Reduce.resembles_of_callConstant typed reduces

/-- Validated, the value reduces to the constant. -/
def ValueExpr.FoldsTo [ZoneTable] (node : ValueExpr) (constant : Constant) : Prop :=
  ∃ node', node.validate = .ok node' ∧ node'.reduce = .ok constant

theorem ValueExpr.FoldsTo.rightUnique [ZoneTable] : Relator.RightUnique ValueExpr.FoldsTo := by
  rintro node a b ⟨node', valid, reduces⟩ ⟨_, valid', reduces'⟩
  obtain rfl := Except.ok.inj (valid.symm.trans valid')
  exact Except.ok.inj (reduces.symm.trans reduces')

theorem ValueExpr.FoldsTo.resembles [ZoneTable] {node : ValueExpr} {type : DataType}
    {constant : Constant} (folds : node.FoldsTo constant) (known : node.isConstant = true)
    (typed : node.type = .ok type) : type.Resembles constant.type := by
  obtain ⟨node', valid, reduces⟩ := folds
  exact resembles_of_reduce ((Expr.ValidatesTo.type_iff valid known).2 typed) reduces

end EventQuery
