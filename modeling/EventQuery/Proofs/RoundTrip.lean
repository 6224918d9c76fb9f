import EventQuery.Proofs.CallReading
import EventQuery.Proofs.Constants

/-!
The text of an expression is read in as many levels as it needs, or not at all; what is read
is the tree that the text stands for.
-/
namespace EventQuery

open Reading Reading.ExpressionReader
open Text.Quoted

/-! ### Numbers -/

namespace Reading.ExpressionReader

variable {rest : List Token} {token : Token} {text : String} {value : Constant}

theorem primary_number (isNumber : numberText? (some token) = some text)
    (reads : ∀ span rest, Reads (numberConstant text false span) rest rest (· = value)) :
    Primary 0 [token] fun x => x.bare = .value (.constant .none value) := by
  have read (span : Span) (rest : List Token) : Reads
      (do return .value (.constant span (← numberConstant text false span)) : Production Expr) rest rest
      fun x => x.bare = .value (.constant .none value) :=
    (reads span rest).bind fun found same => .pure (by rw [Expr.bare, ValueExpr.bare, same])
  cases token <;> simp only [numberText?, reduceCtorEq, Option.some.injEq] at isNumber
  case integer =>
    subst isNumber
    exact ⟨⟨_, [], rfl, rfl⟩, fun k rest _ =>
      .congr level_zero (.place fun span => .peek (.advance (read span rest)))⟩
  case decimal =>
    subst isNumber
    exact ⟨⟨_, [], rfl, rfl⟩, fun k rest _ =>
      .congr level_zero (.place fun span => .peek (.advance (read span rest)))⟩

/-- A minus in front of a number, in parentheses. -/
theorem primary_minus (isNumber : numberText? (some token) = some text)
    (reads : ∀ span rest, Reads (numberConstant text true span) rest rest (· = value)) :
    Primary 1 (groupTokens [.minus, token]) fun x => x.bare = .value (.constant .none value) := by
  refine Begins.group (show Begins .signed 0 _ _ from ?_)
  refine .of_reads ⟨_, _, rfl, rfl⟩ (fun _ _ _ _ => rfl) fun k rest stops => .congr level_zero ?_
  rw [List.cons_append, List.cons_append, List.nil_append]
  refine .start fun first => .peek (.advance (.peek ?_))
  rw [List.head?_cons, isNumber]
  refine .advance (.spanFrom fun span => (reads span rest).bind fun found same => .pure ?_)
  rw [Expr.bare, ValueExpr.bare, same]

theorem primary_integer {n : Int} {word : Int64} (same : word.toInt = n) :
    Primary (n < 0 : Bool).toNat (integerTokens n)
      fun x => x.bare = .value (.constant .none (.ofInteger word)) := by
  unfold integerTokens signedTokens
  by_cases negative : n < 0
  · simp only [negative, decide_true, if_true, Bool.toNat_true]
    exact primary_minus rfl fun span rest => reads_integer (by rw [if_pos rfl]; omega) span
  · simp only [negative, decide_false, Bool.false_eq_true, if_false, Bool.toNat_false]
    exact primary_number rfl fun span rest => reads_integer (by rw [if_neg (by decide)]; omega) span

/-! ### Constants -/

theorem primary_word {word : String} {value : Constant} (free : reserved.contains word = false)
    (known : ∀ deeper first, keywordOrName deeper word first = (do return .value (← literal value))) :
    Primary 0 [.word word] fun x => x.bare = .value (.constant .none value) := by
  refine ⟨⟨_, [], rfl, ?_⟩, fun k rest _ => .congr level_zero (.place fun span => .peek ?_)⟩
  · have other : word ≠ "NOT" := by
      rintro rfl
      exact absurd free (by decide)
    simp [other]
  · simp only [List.cons_append, List.head?_cons, free, Bool.false_eq_true, if_false, known]
    exact .bind (P := fun x => x.bare = .constant .none value)
      (.place fun span => .advance (.pure rfl)) fun x same => .pure (by rw [Expr.bare, same])

theorem primary_string (text : String) :
    Primary 0 [.string (quote text)] fun x => x.bare = .value (.constant .none (.string text)) := by
  refine ⟨⟨_, [], rfl, rfl⟩, fun k rest _ => .congr level_zero ?_⟩
  refine .place fun span => .peek (.advance (.pure ?_))
  rw [Expr.bare, ValueExpr.bare, Constant.ofLiteral, unquote_quote]

theorem castNode_constant {target : DataType} {value result : Constant}
    (isLiteral : isLiteralCast target = true) (known : value.cast target = .ok result) :
    castNode .none target (.constant .none value) = .constant .none result := by
  rw [castNode, if_pos isLiteral, known]

/-- The cast of an integer literal to a type without literals of its own. -/
theorem primary_castInteger {n : Int} {word : Int64} {target : DataType} {value : Constant}
    (same : word.toInt = n)
    (integral : target = .byte ∨ target = .short ∨ target = .datetime ∨
      target = .long ∧ (Number.Width.int32? word.toInt).isSome = true)
    (known : Constant.ofIntegral n target = .ok value) :
    Primary ((n < 0 : Bool).toNat + 1) (castTokens (integerTokens n) target)
      fun x => x.bare = .value (.constant .none value) := by
  have isLiteral : isLiteralCast target = true := by
    rcases integral with rfl | rfl | rfl | ⟨rfl, -⟩ <;> rfl
  have cast := castNode_constant isLiteral ((Constant.cast_ofInteger integral).trans (same ▸ known))
  exact cast ▸ primary_cast (primary_integer same)

theorem primary_double (value : Float) :
    Primary (Constant.doubleLevels value) (Constant.doubleTokens value)
      fun x => x.bare = .value (.constant .none (.double value)) := by
  unfold Constant.doubleLevels Constant.doubleTokens
  cases known : Number.Binary64.kind value with
  | nan =>
    rw [Number.Binary64.eq_notANumber known]
    have cast : castNode .none .double (.constant .none (.string "NaN")) =
        .constant .none (.double Number.Binary64.notANumber) := castNode_constant rfl rfl
    exact cast ▸ primary_cast (primary_string "NaN")
  | infinite negative =>
    rw [Number.Binary64.eq_infinity known]
    cases negative with
    | true =>
      have cast : castNode .none .double (.constant .none (.string "-inf")) =
          .constant .none (.double (-Number.Binary64.infinity)) := castNode_constant rfl rfl
      exact cast ▸ primary_cast (primary_string "-inf")
    | false =>
      have cast : castNode .none .double (.constant .none (.string "inf")) =
          .constant .none (.double Number.Binary64.infinity) := castNode_constant rfl rfl
      exact cast ▸ primary_cast (primary_string "inf")
  | finite parts =>
    have isDecimal := Number.Layout.isDecimal_magnitude parts
    cases sign : parts.negative with
    | false =>
      have read := Number.Reader.decimal?_magnitude known sign
      simp only [sign, signedTokens, Bool.false_eq_true, if_false, Bool.toNat_false]
      refine primary_number ?_ fun span rest => reads_decimal isDecimal read false span
      rfl
    | true =>
      have read := Number.Reader.decimal?_magnitude (Number.Binary64.kind_neg known)
        (by rw [sign, Bool.not_true])
      have reads (span : Span) (rest : List Token) :=
        @reads_decimal rest _ _ isDecimal read true span
      simp only [if_true, Number.Binary64.neg_neg] at reads
      simp only [sign, signedTokens, if_true, Bool.toNat_true]
      refine primary_minus ?_ reads
      rfl

theorem primary_constant (value : Constant) :
    Primary value.levels value.tokens fun x => x.bare = .value (.constant .none value) := by
  cases value with
  | boolean value => cases value <;> exact primary_word (by decide) fun _ _ => rfl
  | null => exact primary_word (by decide) fun _ _ => rfl
  | string value => exact primary_string value
  | double value => exact primary_double value
  | integer value =>
    have read := primary_integer value.toInt_toInt64
    rw [Constant.ofInteger_toInt value.toInt_toInt64] at read
    exact read
  | byte value =>
    exact primary_castInteger value.toInt_toInt64 (.inl rfl)
      (by rw [Constant.ofIntegral, Number.Width.int8?_toInt, Constant.orOverflow])
  | short value =>
    exact primary_castInteger value.toInt_toInt64 (.inr (.inl rfl))
      (by rw [Constant.ofIntegral, Number.Width.int16?_toInt, Constant.orOverflow])
  | datetime ms =>
    exact primary_castInteger rfl (.inr (.inr (.inl rfl)))
      (by rw [Constant.ofIntegral, Number.Width.int64?_toInt, Constant.orOverflow])
  | long value =>
    rw [Constant.levels, Constant.tokens]
    cases narrow : Number.Width.int32? value.toInt with
    | none => exact Constant.ofInteger_wide narrow ▸ primary_integer rfl
    | some word =>
      exact primary_castInteger rfl (.inr (.inr (.inr ⟨rfl, by rw [narrow]; rfl⟩)))
        (by rw [Constant.ofIntegral, Number.Width.int64?_toInt, Constant.orOverflow])

/-! ### Signs in front of numerals -/

theorem reads_negatedInteger {n : Int} (natural : ¬ n < 0) (small : n < 2 ^ 63) (span : Span) :
    Reads (numberConstant (toString n.natAbs) true span) rest rest (· = .ofInteger (Int64.ofInt (-n))) := by
  refine reads_integer ?_ span
  rw [Int64.toInt_ofInt_of_le (by omega) (by omega), if_pos rfl]
  omega

theorem integerTokens_natural {n : Int} (natural : ¬ n < 0) :
    integerTokens n = [.integer (toString n.natAbs)] := by
  simp [integerTokens, signedTokens, natural]

/-- A constant that a minus may become part of is written as one number. -/
theorem reads_negated {value negated : Constant} (known : value.negated? = some negated) :
    ∃ token text, value.tokens = [token] ∧ numberText? (some token) = some text ∧
      ∀ span rest, Reads (numberConstant text true span) rest rest (· = negated) := by
  cases value <;> simp only [Constant.negated?, reduceCtorEq] at known
  case integer value =>
    split_ifs at known with negative
    cases known
    refine ⟨_, _, integerTokens_natural negative, rfl, fun span rest => ?_⟩
    exact reads_negatedInteger negative (value.toInt_lt.trans (by decide)) span
  case long value =>
    split_ifs at known with other
    cases known
    obtain ⟨natural, wide⟩ := not_or.1 other
    have shape : (Constant.long value).tokens = [.integer (toString value.toInt.natAbs)] := by
      rw [Constant.tokens, if_neg wide, integerTokens_natural natural]
    exact ⟨_, _, shape, rfl, fun span rest => reads_negatedInteger natural value.toInt_lt span⟩
  case double value =>
    split at known
    · rename_i parts finite
      split_ifs at known with negative
      cases known
      have natural : parts.negative = false := by simpa using negative
      have read := Number.Reader.decimal?_magnitude finite natural
      refine ⟨.decimal _, _, ?_, rfl, fun span rest =>
        reads_decimal (Number.Layout.isDecimal_magnitude parts) read true span⟩
      simp [Constant.tokens, Constant.doubleTokens, finite, signedTokens, natural]
    · cases known

theorem wordy_of_integer {n : Int} (negative : n < 0) :
    numberText? (integerTokens n).head? = none := by
  simp [integerTokens, signedTokens, negative, groupTokens, numberText?]

theorem wordy_of_constant {value : Constant} (other : value.negated? = none) :
    numberText? value.tokens.head? = none := by
  cases value <;> simp only [Constant.negated?] at other
  case integer value =>
    split_ifs at other with negative
    exact wordy_of_integer negative
  case long value =>
    split_ifs at other with numeral
    rw [Constant.tokens]
    split_ifs with narrow
    · rfl
    · exact wordy_of_integer (numeral.resolve_right narrow)
  case double value =>
    rw [Constant.tokens, Constant.doubleTokens]
    split
    · rfl
    · rfl
    · rename_i parts finite
      rw [finite] at other
      have negative : parts.negative = true := by simpa using other
      rw [signedTokens, if_pos negative]
      rfl
  all_goals rfl

/-- A value whose text is no numeral does not start like one. -/
theorem wordy_of_negated? {node : ValueExpr} (other : ValueExpr.negated? .minus node = none) :
    numberText? node.tokens.head? = none := by
  have named (name : String) (more : List Token) : numberText? (nameTokens name ++ more).head? = none := by
    obtain ⟨word, others, shape, -⟩ := head_nameTokens name
    rw [shape]
    rfl
  cases node
  case constant span value => exact wordy_of_constant other
  case path span name resolved => simpa [ValueExpr.tokens] using named name []
  case call span name arguments binding => exact named name _
  case aggregation => rw [ValueExpr.tokens_aggregation]; rfl
  all_goals rfl

end Reading.ExpressionReader

namespace Expr

/-- What is read of the text of the expression has to be this. -/
def ReadAs (expr x : Expr) : Prop :=
  match expr with
  | .bool node => (asPredicate x).bare = node.reread
  | .value node => x.bare = .value node.reread

end Expr

/-! ### Predicates and values -/

theorem asPredicate_of_bool {x : Expr} {node : BoolExpr} (same : x.bare = .bool node) :
    (asPredicate x).bare = node := by
  cases x with
  | bool => exact Expr.bool.inj same
  | value => cases same

theorem asPredicate_truth {x : Expr} {truth : Bool}
    (same : x.bare = .value (.constant .none (.boolean truth))) :
    (asPredicate x).bare = .constant .none (.boolean truth) := by
  cases x with
  | bool => cases same
  | value node =>
    cases node <;> simp only [Expr.bare, ValueExpr.bare, Expr.value.injEq, reduceCtorEq,
      ValueExpr.constant.injEq, true_and] at same
    case constant => rw [same, asPredicate, BoolExpr.bare]
    case aggregation => rw [ValueExpr.bare_aggregation] at same; cases same

/-- A value that is no truth value is wrapped where a predicate is expected. -/
theorem asPredicate_open {x : Expr} {node : ValueExpr} (same : x.bare = .value node)
    (open' : ∀ span truth, node ≠ .constant span (.boolean truth)) :
    (asPredicate x).bare = .wrapper .none node := by
  cases x with
  | bool => cases same
  | value found =>
    obtain rfl : found.bare = node := Expr.value.inj same
    have other : asPredicate (.value found) = .ofValue found := by
      unfold asPredicate
      split
      · cases ‹_ = _›
      · rename_i isTruth
        cases isTruth
        exact absurd rfl (open' _ _)
      · rename_i isNode
        rw [Expr.value.inj isNode]
    rw [other]
    rfl

/-- A literal cast never gives a truth value. -/
theorem Constant.cast_ne_boolean {value : Constant} {target : DataType} {truth : Bool}
    (isLiteral : isLiteralCast target = true) : value.cast target ≠ .ok (.boolean truth) := by
  intro known
  by_cases legal : DataType.isLegalCast value.type target = true
  · have sound := Fits.cast_sound (show Fits value.type value from .inl rfl) legal
    rw [known] at sound
    rcases sound with same | absent
    · cases same
      cases isLiteral
    · cases absent
  · cases value <;> cases target <;>
      simp_all [DataType.isLegalCast, isLiteralCast, Constant.type, Constant.cast]

theorem Constant.ofInteger_ne_boolean {word : Int64} {truth : Bool} :
    Constant.ofInteger word ≠ .boolean truth := by
  unfold Constant.ofInteger
  split <;> simp

theorem Constant.negated?_ne_boolean {value : Constant} {truth : Bool} :
    value.negated? ≠ some (.boolean truth) := by
  cases value <;> simp only [Constant.negated?, ne_eq, reduceCtorEq, not_false_eq_true]
  case integer => split_ifs <;> simp [ofInteger_ne_boolean]
  case long => split_ifs <;> simp [ofInteger_ne_boolean]
  case double =>
    split
    · split_ifs <;> simp
    · simp

theorem ValueExpr.reread_open {node : ValueExpr}
    (open' : ∀ span truth, node ≠ .constant span (.boolean truth)) :
    ∀ span truth, node.reread ≠ .constant span (.boolean truth) := by
  intro span truth same
  cases node
  case constant place value =>
    cases same
    exact open' _ _ rfl
  case unary place sign operand =>
    rw [reread] at same
    split at same
    · rename_i value known
      cases same
      unfold negated? at known
      split at known
      · exact Constant.negated?_ne_boolean known
      · cases known
    · cases same
  case cast place target operand =>
    rw [reread, castNode.eq_def] at same
    split at same
    · split_ifs at same with isLiteral
      · split at same
        · cases same
          exact Constant.cast_ne_boolean isLiteral ‹_›
        · cases same
    · cases same
  case aggregation => rw [reread_aggregation] at same; cases same
  all_goals cases same

theorem ValueExpr.exists_of_negated? {sign : Sign} {node : ValueExpr} {value : Constant}
    (known : negated? sign node = some value) :
    sign = .minus ∧ ∃ span literal, node = .constant span literal ∧ literal.negated? = some value := by
  unfold negated? at known
  split at known
  · exact ⟨rfl, _, _, rfl, known⟩
  · cases known

namespace Expr.Spelled

theorem readEach {nodes : List ValueExpr} (each : ∀ node ∈ nodes, ValueRead node) :
    ReadEach nodes (ValueExpr.rereads nodes) := by
  rw [ValueExpr.rereads_eq_map, ReadEach, List.forall₂_map_right_iff, List.forall₂_same]
  exact each

/-- The text of an expression is read in as many levels as it needs. -/
theorem primary {expr : Expr} (spelled : expr.Spelled) :
    Primary expr.levels expr.tokens expr.ReadAs := by
  induction spelled with
  | @truth _ truth => exact (primary_constant (.boolean truth)).mono fun x => asPredicate_truth
  | connective _ _ ih ih' => exact (primary_connective ih ih').mono fun x => asPredicate_of_bool
  | not _ ih => exact (primary_not ih).mono fun x => asPredicate_of_bool
  | comparison _ _ ih ih' => exact (primary_comparison ih ih').mono fun x => asPredicate_of_bool
  | bounds _ _ _ ih ih' ih'' => exact (primary_bounds ih ih' ih'').mono fun x => asPredicate_of_bool
  | nullTest _ ih => exact (primary_nullTest ih).mono fun x => asPredicate_of_bool
  | inList _ _ ih ihs => exact (primary_inList ih (readEach ihs)).mono fun x => asPredicate_of_bool
  | inVector _ _ ih => exact (primary_inVector ih).mono fun x => asPredicate_of_bool
  | wrapper _ open' ih => exact ih.mono fun x same => asPredicate_open same (ValueExpr.reread_open open')
  | boundary => exact primary_boundary.mono fun x => asPredicate_of_bool
  | stepReference => exact primary_step.mono fun x => asPredicate_of_bool
  | @constant _ value => exact primary_constant value
  | path _ starts => exact primary_path starts
  | @parameter _ name _ _ =>
    exact ⟨⟨_, [], rfl, rfl⟩, fun k rest _ =>
      .congr level_zero (.place fun span => .peek (.advance (.pure rfl)))⟩
  | arithmetic _ _ ih ih' => exact primary_arithmetic ih ih'
  | @unary span sign operand _ ih =>
    change Primary (ValueExpr.unary span sign operand).levels (ValueExpr.unary span sign operand).tokens
      fun x => x.bare = .value (ValueExpr.unary span sign operand).reread
    rw [ValueExpr.levels, ValueExpr.tokens, ValueExpr.reread]
    cases known : ValueExpr.negated? sign operand with
    | some value =>
      obtain ⟨rfl, place, literal, rfl, negates⟩ := ValueExpr.exists_of_negated? known
      obtain ⟨token, text, single, isNumber, reads⟩ := reads_negated negates
      rw [ValueExpr.tokens, single]
      exact primary_minus isNumber reads
    | none => exact primary_unary ih fun isMinus => wordy_of_negated? (isMinus ▸ known)
  | cast _ ih => exact primary_cast ih
  | conversion _ ih => exact primary_conversion ih
  | quantum _ ih => exact primary_quantum ih
  | call _ starts free _ ihs => exact primary_call starts free (readEach ihs)
  | aggregation top _ _ _ _ _ counts ih conditions quantas =>
    exact primary_aggregation top counts ih conditions quantas
  | now => exact primary_now

end Expr.Spelled

end EventQuery
