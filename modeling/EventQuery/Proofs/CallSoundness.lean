import EventQuery.Proofs.Constants
import EventQuery.Proofs.Reduction
import EventQuery.Proofs.TypingRules

/-!
Reduction of operators and built-in calls over operands that fit their types. Each of
them gives a constant of the type that the static rule states, or `NULL`, or fails with
a diagnostic that lies in the values.
-/
namespace EventQuery

open Outcome DataType

namespace Reduce

/-- Diagnostics of a reduction that lie in the values it met: an operation failed on
them, or an instant could not be written in a format. -/
inductive IsOfValues : Diagnostic → Prop where
  | operation {span error} (cause : ConstantError.IsOfValues error) : IsOfValues (fault span error)
  | unformattable {span} {ms : Int} {format : String} :
    IsOfValues (.of .typeError span s!"cannot format {ms} with `{format}`")

/-- Diagnostics of a reduction that lie in the expression: its types do not fit, it is
not known at compile time, or a name in it has no meaning. -/
inductive IsOfExpression : Diagnostic → Prop where
  | types {span error} (cause : ConstantError.IsOfTypes error) : IsOfExpression (fault span error)
  | notConstant {diagnostic} (kind : diagnostic.kind = .constantRequired) :
    IsOfExpression diagnostic
  | unresolved {diagnostic} (kind : diagnostic.kind = .unresolvedReference) :
    IsOfExpression diagnostic

/-- The message of a cause in the types does not start like that of one in the values. -/
private theorem message_of_types {error : ConstantError} (cause : error.IsOfTypes) :
    (∃ rest, error.message = "incompatible types " ++ rest) ∨
      ∃ rest, error.message = "cannot cast " ++ rest := by
  cases cause <;> unfold ConstantError.message <;> simp only [String.append_assoc]
  · exact .inl ⟨_, rfl⟩
  · exact .inr ⟨_, rfl⟩

private theorem message_ne {error : ConstantError} (cause : error.IsOfTypes) {message : String}
    (starts : (∃ rest, message = "cannot parse '" ++ rest) ∨
      ∃ rest, message = "cannot format " ++ rest) : error.message ≠ message := by
  rintro rfl
  rcases message_of_types cause with ⟨rest', same⟩ | ⟨rest', same⟩ <;> rw [same] at starts <;>
    rcases starts with ⟨rest, starts⟩ | ⟨rest, starts⟩ <;>
    simpa using congrArg String.toList starts

private theorem detail_injective {span span' : Span} {detail detail' : String}
    (same : Diagnostic.of .typeError span detail = Diagnostic.of .typeError span' detail') :
    detail = detail' := by
  simpa [Diagnostic.of, Diagnostic.withDetail, Diagnostic.ofKind, DiagnosticKind.messageWith,
    DiagnosticKind.frame] using congrArg Diagnostic.message same

private theorem fault_of_types {span : Span} {error : ConstantError} (cause : error.IsOfTypes) :
    fault span error = .of .typeError span error.message := by
  cases cause <;> rfl

private theorem kind_of_values {diagnostic : Diagnostic} (values : IsOfValues diagnostic) :
    diagnostic.kind = .typeError ∨ diagnostic.kind = .arithmeticFault := by
  cases values with
  | unformattable => exact .inl rfl
  | operation cause => cases cause <;> first | exact .inl rfl | exact .inr rfl

/-- The two kinds of diagnostics exclude each other. -/
theorem IsOfValues.not_isOfExpression {diagnostic : Diagnostic} (values : IsOfValues diagnostic) :
    ¬IsOfExpression diagnostic := by
  intro expression
  have kind := kind_of_values values
  cases expression with
  | notConstant required => simp [required] at kind
  | unresolved missing => simp [missing] at kind
  | types cause =>
    rw [fault_of_types cause] at values
    generalize same : Diagnostic.of .typeError _ _ = diagnostic at values
    cases values with
    | unformattable =>
      refine message_ne cause (.inr ?_) (detail_injective same)
      simp only [String.append_assoc]
      exact ⟨_, rfl⟩
    | operation cause' =>
      cases cause' with
      | unreadable =>
        refine message_ne cause (.inl ?_) (detail_injective same)
        unfold ConstantError.message
        simp only [String.append_assoc]
        exact ⟨_, rfl⟩
      | divisionByZero => cases congrArg Diagnostic.kind same
      | noLocalTime => cases congrArg Diagnostic.kind same
      | overflow => cases congrArg Diagnostic.kind same

theorem not_isOfValues_crash : ¬IsOfValues crash := fun values => by
  rcases kind_of_values values with kind | kind <;> cases kind

/-- What may end a reduction: a diagnostic that lies in the values or, if `crashes` holds, the
crash. -/
inductive IsEnding (crashes : Prop) : Diagnostic → Prop where
  | values {diagnostic} (cause : IsOfValues diagnostic) : IsEnding crashes diagnostic
  | crash (cause : crashes) : IsEnding crashes crash

/-- A constant that fits the type, or one of the other endings. -/
abbrev Sound (crashes : Prop) (type : DataType) (found : Found) : Prop :=
  Ends (Constant.Fits type) (IsEnding crashes) found

/-! ### Operators -/

variable {crashes : Prop} {span : Span} {type : DataType}

theorem orFault_ends {α : Type} {good : α → Prop} {result : Except ConstantError α}
    (ends : Ends good ConstantError.IsOfValues result) :
    Ends good (IsEnding crashes) (orFault span result) :=
  ends.mapError fun _ cause => .values (.operation cause)

theorem signedConstant_sound {sign : Sign} {operand : Constant} {source : DataType}
    (fits : operand.Fits source) (typed : Typing.unaryType span sign source = .ok type) :
    Sound crashes type (signedConstant span sign operand) := by
  obtain ⟨numeric, rfl⟩ := Typing.unaryType_eq_ok.1 typed
  cases sign with
  | plus => exact fits
  | minus => exact orFault_ends (fits.negate_sound numeric)

/-- Conversions cast their operand, to what they state or to a count. -/
private theorem legal_of_accepts {kind : Conversion} {source : DataType}
    (accepted : kind.accepts source = true ∨ source = .null) :
    isLegalCast source .long = true ∧ isLegalCast source kind.result = true := by
  rcases accepted with accepted | rfl
  · cases kind <;> cases source <;> first | exact ⟨rfl, rfl⟩ | cases accepted
  · cases kind <;> exact ⟨rfl, rfl⟩

theorem converted_sound {kind : Conversion} {operand : Constant} {source : DataType}
    (fits : operand.Fits source) (typed : Typing.conversionType span kind source = .ok type) :
    Sound crashes type (converted span kind operand) := by
  obtain ⟨accepted, rfl⟩ := Typing.conversionType_eq_ok.1 typed
  obtain ⟨toLong, toResult⟩ := legal_of_accepts accepted
  unfold converted
  split
  case isTrue => exact Constant.Fits.null
  case isFalse =>
    cases kind
    case toDatetime => exact orFault_ends (fits.cast_sound toResult)
    case toMillis => exact orFault_ends (fits.cast_sound toLong)
    all_goals
      refine (orFault_ends (fits.cast_sound toLong)).bind fun count _ => orFault_ends ?_
      refine Constant.orOverflow_sound (fun word => ?_) _
      rfl

theorem quantized_sound (taken : Quantum) (ms : Int) (zone : TimeZone) :
    Constant.Sound taken.result (quantized taken ms zone) := by
  unfold quantized
  split
  case isFalse => exact .noLocalTime
  case isTrue =>
    cases taken with
    | truncate unit =>
      dsimp only
      split
      · exact .inl rfl
      · exact .noLocalTime
    | extract part => exact .inl rfl

theorem quantumConstant_sound {taken : Quantum} {zone : Option TimeZone} {operand : Constant}
    {source : DataType} (fits : operand.Fits source)
    (typed : Typing.quantumType span taken source = .ok type)
    (leaves : ∀ ms, operand = .datetime ms → LeavesCalendar (zone.getD .utc) ms.toInt → crashes) :
    Sound crashes type (quantumConstant span taken zone operand) := by
  obtain ⟨accepted, rfl⟩ := Typing.quantumType_eq_ok.1 typed
  unfold quantumConstant
  split
  case h_1 => exact Constant.Fits.null
  case h_2 ms =>
    dsimp only
    split
    case isTrue left => exact .crash (leaves ms rfl left)
    case isFalse => exact orFault_ends (quantized_sound _ _ _)
  case h_3 other absent instant =>
    exfalso
    have isNull : operand.type ≠ .null := fun same => absent (Constant.type_eq_null.1 same)
    obtain same := fits.eq_of_ne isNull
    rcases accepted with rfl | rfl
    · cases operand <;> first | exact instant _ rfl | cases same
    · exact isNull same

/-! ### Arguments -/

/-- Arguments that are known reduce to constants of their types. -/
def SoundArguments (crashes : Prop) (nodes : List ValueExpr) : Prop :=
  ∀ node ∈ nodes, node.isConstant = true ∧ ∀ type, node.type = .ok type → Sound crashes type node.reduce

section Calls

variable {name : String} {nodes : List ValueExpr}

theorem constant_sound (sound : SoundArguments crashes nodes) {index : Nat} {node : ValueExpr}
    {type : DataType} (found : nodes[index]? = some node) (typed : node.type = .ok type) :
    Sound crashes type (Call.constant ⟨span, name, ValueExpr.arguments nodes⟩ index) := by
  obtain ⟨known, reduces⟩ := sound node (List.mem_of_getElem? found)
  simp only [Call.constant, arguments_eq_map, List.getElem?_map, found, Option.map_some, known,
    if_true]
  exact reduces type typed

/-- An argument of an expected type has a constant that fits some type that is accepted. -/
theorem constant_of_expect (sound : SoundArguments crashes nodes) {index : Nat} {expected : String}
    {accepts : DataType → Bool} {type : DataType}
    (typed : Typing.Call.expect ⟨span, name, ValueExpr.types nodes⟩ index expected accepts =
      .ok type) :
    (type = .null ∨ accepts type = true) ∧
      Sound crashes type (Call.constant ⟨span, name, ValueExpr.arguments nodes⟩ index) := by
  obtain ⟨node, found, typed, accepted⟩ := Typing.expect_eq_ok.1 typed
  exact ⟨accepted, constant_sound sound found typed⟩

/-- The constants behind the first argument can all be compared with what fits the type
of the first. -/
theorem constantTail_ends {first : ValueExpr} {rest : List ValueExpr} {value : DataType}
    (sound : SoundArguments crashes (first :: rest))
    (comparable : ∀ node ∈ rest, ∃ type common, node.type = .ok type ∧
      common? value type = some common) :
    Ends (fun constants => ∀ constant ∈ constants, ∃ type common, constant.Fits type ∧
      common? value type = some common) (IsEnding crashes)
      (Call.constantTail ⟨span, name, ValueExpr.arguments (first :: rest)⟩) := by
  refine Ends.mapM fun index member => ?_
  simp only [arguments_eq_map, List.length_map, List.length_cons, Nat.add_sub_cancel,
    List.mem_range] at member
  obtain ⟨type, common, typed, meets⟩ := comparable rest[index] (List.getElem_mem member)
  have found : (first :: rest)[index + 1]? = some rest[index] := by simp [member]
  exact (constant_sound sound found typed).mono fun _ fits => ⟨type, common, fits, meets⟩

/-- The position of a candidate is an integer, if not necessarily an `INTEGER`. -/
theorem enumIndex_ends {value : Constant} {source : DataType} (fits : value.Fits source)
    {candidates : List Constant} (index : Nat)
    (comparable : ∀ candidate ∈ candidates, ∃ type common, candidate.Fits type ∧
      common? source type = some common) :
    Ends (fun constant => constant.type = .integer ∨ constant.type = .long) (IsEnding crashes)
      (enumIndex span value index candidates) := by
  induction candidates generalizing index with
  | nil => exact .inl rfl
  | cons candidate rest ih =>
    obtain ⟨⟨type, common, fits', meets⟩, others⟩ := List.forall_mem_cons.1 comparable
    obtain ⟨equal, found⟩ : ∃ equal, Constant.compareBy .eq value candidate = .ok equal :=
      fits.compareBy_eq_ok fits' meets fun orders => by cases orders
    simp only [enumIndex, found]
    cases equal with
    | false => exact ih (index + 1) others
    | true =>
      show (Constant.ofInteger _).type = _ ∨ (Constant.ofInteger _).type = _
      unfold Constant.ofInteger
      split
      · exact .inl rfl
      · exact .inr rfl

/-- Boundaries are compared with a value that is there, so none of them is a truth value. -/
theorem splitBucket_ends {value : Constant} {source : DataType} (fits : value.Fits source)
    (known : source ≠ .null) (ordered : source ≠ .boolean) {boundaries : List Constant}
    (bucket : Int32)
    (comparable : ∀ boundary ∈ boundaries, ∃ type common, boundary.Fits type ∧
      common? source type = some common) :
    Ends (fun constant => constant.type = .integer) (IsEnding crashes)
      (splitBucket span value bucket boundaries) := by
  induction boundaries generalizing bucket with
  | nil => exact rfl
  | cons boundary rest ih =>
    obtain ⟨⟨type, common, fits', meets⟩, others⟩ := List.forall_mem_cons.1 comparable
    obtain ⟨below, found⟩ : ∃ below, Constant.compareBy .lte boundary value = .ok below :=
      fits'.compareBy_eq_ok fits (common?_comm source type ▸ meets)
        fun _ => common?_ne_boolean meets known ordered
    simp only [splitBucket, found]
    exact ih _ others

private theorem exists_datetime {constant : Constant} (fits : constant.Fits type)
    (present : constant.isNull = false)
    (accepted : type = .null ∨ Typing.isDatetime type = true) : ∃ ms, constant = .datetime ms := by
  obtain rfl := fits.type_eq present
  cases constant <;> simp [Constant.type, Typing.isDatetime, Constant.isNull] at accepted present ⊢

private theorem exists_string {constant : Constant} (fits : constant.Fits type)
    (present : constant.isNull = false)
    (accepted : type = .null ∨ Typing.isString type = true) : ∃ text, constant = .string text := by
  obtain rfl := fits.type_eq present
  cases constant <;> simp [Constant.type, Typing.isString, Constant.isNull] at accepted present ⊢

theorem formatted_sound {state : CallState} (sound : SoundArguments crashes nodes)
    {instant format : DataType}
    (first : Typing.Call.expect ⟨span, name, ValueExpr.types nodes⟩ 0 "a DATETIME"
      Typing.isDatetime = .ok instant)
    (second : Typing.Call.expect ⟨span, name, ValueExpr.types nodes⟩ 1 "a STRING"
      Typing.isString = .ok format) :
    Sound crashes .string (formatted ⟨span, name, ValueExpr.arguments nodes⟩ state) := by
  obtain ⟨isInstant, first⟩ := constant_of_expect sound first
  obtain ⟨isText, second⟩ := constant_of_expect sound second
  refine first.bind fun value fits => second.bind fun text fits' => ?_
  split
  case isTrue => exact Constant.Fits.null
  case isFalse known =>
    simp only [Bool.or_eq_true, not_or, Bool.not_eq_true] at known
    obtain ⟨ms, rfl⟩ := exists_datetime fits known.1 isInstant
    obtain ⟨pattern, rfl⟩ := exists_string fits' known.2 isText
    simp only [Constant.integral?, Constant.string?]
    split
    · exact .inl rfl
    · exact .values .unformattable

/-- A call that is known gives a constant of the type that the static rule states, if the
position that `enum` finds fits an `INTEGER`. -/
theorem callConstant_sound {binding : Binding} (sound : SoundArguments crashes nodes)
    (known : isConstantCall binding.function (ValueExpr.areConstant nodes) = true)
    (accepted : binding.function.arity.accepts nodes.length = true)
    (typed : Typing.callType ⟨span, name, ValueExpr.types nodes⟩ binding = .ok type)
    (narrow : binding.function = .enum → ∀ constant,
      callConstant ⟨span, name, ValueExpr.arguments nodes⟩ binding = .ok constant →
        constant.type ≠ .long) :
    Sound crashes type (callConstant ⟨span, name, ValueExpr.arguments nodes⟩ binding) := by
  obtain ⟨function, state⟩ := binding
  cases function <;> simp only [isConstantCall, reduceCtorEq] at known
  case parseDatetime =>
    simp only [Typing.callType, bind_eq_ok, pure_eq_ok] at typed
    obtain ⟨found, typed, rfl⟩ := typed
    obtain ⟨accepted, reduces⟩ := constant_of_expect sound typed
    refine reduces.bind fun constant fits => orFault_ends (fits.cast_sound ?_)
    rcases accepted with rfl | isText
    · rfl
    · rw [eq_of_beq isText]
      rfl
  case epochMillis =>
    simp only [Typing.callType, bind_eq_ok, pure_eq_ok] at typed
    obtain ⟨found, typed, rfl⟩ := typed
    obtain ⟨accepted, reduces⟩ := constant_of_expect sound typed
    refine reduces.bind fun constant fits => orFault_ends (fits.cast_sound ?_)
    rcases accepted with rfl | isInstant
    · rfl
    · rw [eq_of_beq isInstant]
      rfl
  case formatDatetime =>
    simp only [Typing.callType, bind_eq_ok, pure_eq_ok] at typed
    obtain ⟨instant, first, _, strings, rfl⟩ := typed
    have many : 2 ≤ nodes.length := by
      simp only [Function.arity, Arity.accepts, Bool.and_eq_true, decide_eq_true_eq] at accepted
      exact accepted.1
    obtain ⟨format, second⟩ := Typing.checkStrings_eq_ok.1 strings 0 (by omega)
    exact formatted_sound sound first second
  case enum =>
    simp only [Typing.callType, bind_eq_ok, pure_eq_ok] at typed
    obtain ⟨_, typed, rfl⟩ := typed
    obtain ⟨first, rest, value, rfl, typed, comparable⟩ := Typing.checkCandidates_eq_ok.1 typed
    have position : Ends (fun constant => constant.type = .integer ∨ constant.type = .long)
        (IsEnding crashes)
        (callConstant ⟨span, name, ValueExpr.arguments (first :: rest)⟩ ⟨.enum, state⟩) :=
      (constant_sound sound rfl typed).bind fun _ fits =>
        (constantTail_ends sound comparable).bind fun _ meets => enumIndex_ends fits 0 meets
    generalize callConstant ⟨span, name, ValueExpr.arguments (first :: rest)⟩ ⟨.enum, state⟩ =
      found at position narrow
    cases found with
    | error => exact position
    | ok constant => exact .inl (position.resolve_right (narrow rfl constant rfl))
  case split =>
    simp only [Typing.callType, bind_eq_ok, pure_eq_ok] at typed
    obtain ⟨found, expected, _, typed, rfl⟩ := typed
    obtain ⟨first, rest, value, rfl, typed, comparable⟩ := Typing.checkCandidates_eq_ok.1 typed
    obtain ⟨node, same, typed', accepted⟩ := Typing.expect_eq_ok.1 expected
    obtain rfl := Option.some.inj same
    obtain rfl := Except.ok.inj (typed.symm.trans typed')
    refine (constant_sound sound rfl typed).bind fun constant fits => ?_
    dsimp only
    split
    case isTrue => exact Constant.Fits.null
    case isFalse present =>
      have known : value ≠ .null := by
        rintro rfl
        exact present (Constant.isNull_iff.2 fits.of_null)
      have ordered : value ≠ .boolean := by
        rintro rfl
        rcases accepted with numeric | instant
        · cases numeric
        · cases instant
      exact (constantTail_ends sound comparable).bind fun _ meets =>
        (splitBucket_ends fits known ordered 0 meets).mono fun _ same => .inl same

end Calls

end Reduce

end EventQuery
