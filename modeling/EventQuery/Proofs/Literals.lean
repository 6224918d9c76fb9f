import EventQuery.Constant.Text
import EventQuery.Proofs.DecimalText
import EventQuery.Proofs.Names
import EventQuery.Proofs.Nesting

/-!
The tokens of constants, and what number tokens and casts of literals are read as.
-/
namespace EventQuery

open Reading
open Number.Reader (isDigit)
open Text.Quoted

/-! ### Tokens -/

/-- Tokens in parentheses. -/
def groupTokens (tokens : List Token) : List Token := .openParen :: (tokens ++ [.closeParen])

/-- A numeral, in parentheses if there is a minus in front of it. -/
def signedTokens (negative : Bool) (numeral : Token) : List Token :=
  if negative then groupTokens [.minus, numeral] else [numeral]

def integerTokens (value : Int) : List Token :=
  signedTokens (value < 0) (.integer (toString value.natAbs))

/-- A word with tokens in parentheses behind it. -/
def calledTokens (word : String) (tokens : List Token) : List Token :=
  .word word :: groupTokens tokens

def castTokens (tokens : List Token) (type : DataType) : List Token :=
  calledTokens "CAST" (tokens ++ [.word "AS", .word type.name])

namespace Constant

def doubleTokens (value : Float) : List Token :=
  match Number.Binary64.kind value with
  | .nan => castTokens [.string (quote "NaN")] .double
  | .infinite negative => castTokens [.string (quote (if negative then "-inf" else "inf"))] .double
  | .finite parts =>
    signedTokens parts.negative
      (.decimal (String.ofList (Number.Layout.magnitude Number.Layout.literal parts)))

/-- The tokens of the text of a constant. -/
def tokens : Constant → List Token
  | boolean value => [.word (if value then "TRUE" else "FALSE")]
  | null => [.word "NULL"]
  | string value => [.string (quote value)]
  | integer value => integerTokens value.toInt
  | byte value => castTokens (integerTokens value.toInt) .byte
  | short value => castTokens (integerTokens value.toInt) .short
  | long value =>
    if (Number.Width.int32? value.toInt).isSome then castTokens (integerTokens value.toInt) .long
    else integerTokens value.toInt
  | datetime ms => castTokens (integerTokens ms.toInt) .datetime
  | double value => doubleTokens value

end Constant

/-! ### Scanning -/

/-- What may follow a literal. -/
def Apart (rest : List Char) : Prop :=
  ∀ c ∈ rest.head?, isWordPart c = false ∧ c ≠ '.' ∧ c ≠ '\''

theorem Apart.noWordPart {rest : List Char} (apart : Apart rest) : NoWordPart rest :=
  fun c found => (apart c found).1

theorem Apart.isDigit {rest : List Char}
    (apart : Apart rest) : ∀ c ∈ rest.head?, isDigit c = false := by
  intro c found
  have none := (apart c found).1
  simp only [isWordPart, Bool.or_eq_false_iff] at none
  exact none.2

theorem lexes_keyword {text : String} (word : IsWord text) :
    Lexes lexeme Apart text.toList [.word text] :=
  (lexes_word word).imp fun _ apart => apart.noWordPart

theorem fractionLength_eq {fraction rest : List Char}
    (isFraction : fraction = [] ∨ ∃ digits, digits ≠ [] ∧ digits.all isDigit = true ∧
      fraction = '.' :: digits)
    (ends : ∀ c ∈ rest.head?, isDigit c = false ∧ c ≠ '.') :
    fractionLength (fraction ++ rest) = fraction.length := by
  rcases isFraction with rfl | ⟨digits, nonempty, each, rfl⟩
  · rw [List.nil_append]
    unfold fractionLength
    split
    · exact absurd rfl (ends '.' rfl).2
    · rfl
  · have run := takeWhile_append each fun c found => (ends c found).1
    simp [fractionLength, run, nonempty, Nat.add_comm]

theorem exponentLength_eq {exponent rest : List Char}
    (isExponent : exponent = [] ∨ ∃ sign digits, (sign = [] ∨ sign = ['-']) ∧ digits ≠ [] ∧
      digits.all isDigit = true ∧ exponent = 'e' :: (sign ++ digits)) (apart : Apart rest) :
    exponentLength (exponent ++ rest) = exponent.length := by
  rcases isExponent with rfl | ⟨sign, digits, signed, nonempty, each, rfl⟩
  · cases rest with
    | nil => rfl
    | cons c rest =>
      have other := (apart c rfl).1
      have mark : ¬ (c = 'e' ∨ c = 'E') := by
        rintro (rfl | rfl) <;> exact absurd other (by decide)
      simp [exponentLength, mark]
  · have run := takeWhile_append each apart.isDigit
    obtain ⟨first, more, rfl⟩ := List.exists_cons_of_ne_nil nonempty
    rw [List.all_cons, Bool.and_eq_true] at each
    have unsigned : ¬ (first = '+' ∨ first = '-') := by
      rintro (rfl | rfl) <;> exact absurd each.1 (by decide)
    have taken : (first :: (more ++ rest)).takeWhile isDigit = first :: more := run
    rcases signed with rfl | rfl
    · show exponentLength ('e' :: first :: (more ++ rest)) = more.length + 2
      simp only [exponentLength, true_or, if_true, if_neg unsigned, List.drop_zero, taken,
        List.length_cons, Nat.add_eq_zero_iff, Nat.one_ne_zero, and_false, if_false]
      omega
    · show exponentLength ('e' :: '-' :: first :: (more ++ rest)) = more.length + 3
      simp only [exponentLength, true_or, or_true, if_true, List.drop_succ_cons, List.drop_zero,
        taken, List.length_cons, Nat.add_eq_zero_iff, Nat.one_ne_zero, and_false, if_false]
      omega

theorem isWordStart_of_isDigit {c : Char} (digit : isDigit c = true) : isWordStart c = false := by
  rw [Bool.eq_false_iff]
  intro starts
  simp only [isWordStart, Char.isAlpha, Char.isUpper, Char.isLower, Bool.or_eq_true,
    decide_eq_true_eq, Bool.and_eq_true, beq_iff_eq] at starts
  rcases starts with (starts | starts) | rfl
  · simp_all [isDigit, Char.le_def, UInt32.le_iff_toNat_le]
    omega
  · simp_all [isDigit, Char.le_def, UInt32.le_iff_toNat_le]
    omega
  · exact absurd digit (by decide)

theorem lexeme_digit {c : Char} {rest : List Char} (digit : isDigit c = true) :
    lexeme c rest = numberLexeme c rest := by
  unfold lexeme
  split <;> first
    | exact absurd digit (by decide)
    | rw [if_neg (by simp [isWordStart_of_isDigit digit]), if_pos digit]

theorem lexes_number {first : Char} {whole fraction exponent : List Char}
    (digit : isDigit first = true) (digits : whole.all isDigit = true)
    (isFraction : fraction = [] ∨ ∃ digits, digits ≠ [] ∧ digits.all isDigit = true ∧
      fraction = '.' :: digits)
    (isExponent : exponent = [] ∨ ∃ sign digits, (sign = [] ∨ sign = ['-']) ∧ digits ≠ [] ∧
      digits.all isDigit = true ∧ exponent = 'e' :: (sign ++ digits)) :
    let text := first :: (whole ++ fraction ++ exponent)
    Lexes lexeme Apart text [if fraction.length + exponent.length = 0
      then .integer (String.ofList text) else .decimal (String.ofList text)] := by
  refine .token (isSpace_of_isDigit digit) fun rest apart => ?_
  have startsExponent : ∀ c ∈ (exponent ++ rest).head?, isDigit c = false ∧ c ≠ '.' := by
    intro c found
    rcases isExponent with rfl | ⟨sign, digits, -, -, -, rfl⟩
    · exact ⟨apart.isDigit c found, (apart c found).2.1⟩
    · cases found
      decide
  have startsFraction : ∀ c ∈ (fraction ++ (exponent ++ rest)).head?, isDigit c = false := by
    intro c found
    rcases isFraction with rfl | ⟨digits, -, -, rfl⟩
    · exact (startsExponent c found).1
    · cases found
      decide
  have run := takeWhile_append digits startsFraction
  have fractions := fractionLength_eq isFraction startsExponent
  have exponents := exponentLength_eq isExponent apart
  have split : whole ++ fraction ++ exponent ++ rest = whole ++ (fraction ++ (exponent ++ rest)) := by
    simp only [List.append_assoc]
  have taken : (whole ++ (fraction ++ (exponent ++ rest))).take
      (whole.length + fraction.length + exponent.length) = whole ++ fraction ++ exponent := by
    rw [← split, ← List.length_append, ← List.length_append, List.take_left]
  rw [lexeme_digit digit, split]
  simp only [numberLexeme, run, List.drop_left, fractions, ← List.drop_drop, exponents, taken,
    List.length_append]

theorem lexes_natural (n : Nat) :
    Lexes lexeme Apart (toString n).toList [.integer (toString n)] := by
  obtain ⟨first, rest, shape, digit, digits⟩ := Number.Reader.exists_toDigits_eq_cons n
  have number := lexes_number digit digits (.inl rfl) (.inl rfl)
  rw [Number.Reader.toList_toString, Nat.toString_eq_ofList_toDigits, shape]
  simpa using number

theorem lexes_decimal {text : List Char} (isDecimal : Number.IsDecimal text) :
    Lexes lexeme Apart text [.decimal (String.ofList text)] := by
  obtain ⟨first, whole, fraction, exponent, rfl, digit, digits, isFraction, isExponent, some⟩ :=
    isDecimal
  have number := lexes_number digit digits isFraction isExponent
  have nonempty : ¬ (fraction.length + exponent.length = 0) := by
    rw [Nat.add_eq_zero_iff, List.length_eq_zero_iff, List.length_eq_zero_iff]
    exact fun none => some.elim (absurd none.1) (absurd none.2)
  simp only [if_neg nonempty] at number
  exact number

/-- A character that is a token of its own, in front of anything. -/
theorem lexes_mark {c : Char} {token : Token} (visible : isSpace c = false)
    (taken : ∀ rest, lexeme c rest = .token token 0) : Lexes lexeme Apart [c] [token] :=
  (lexes_char visible taken).imp fun _ _ => trivial

theorem apart_mark {c : Char} {rest : List Char}
    (other : isWordPart c = false ∧ c ≠ '.' ∧ c ≠ '\'' := by decide) : Apart (c :: rest) := by
  rintro _ ⟨⟩
  exact other

namespace Reading.Lexes

variable {piece piece' : List Char} {tokens tokens' : List Token}

/-- Pieces with a blank between them. -/
theorem spaced (first : Lexes lexeme Apart piece tokens)
    (second : Lexes lexeme Apart piece' tokens') :
    Lexes lexeme Apart (piece ++ ' ' :: piece') (tokens ++ tokens') := by
  have blank : Lexes lexeme anywhere [' '] [] := .space rfl
  exact first.append (blank.append second fun _ _ => trivial) fun _ _ => apart_mark

/-- A piece in parentheses. -/
theorem parens (inside : Lexes lexeme Apart piece tokens) :
    Lexes lexeme Apart ('(' :: (piece ++ [')'])) (groupTokens tokens) := by
  have opens : Lexes lexeme anywhere ['('] [.openParen] := lexes_char (by decide) fun _ => rfl
  have closes : Lexes lexeme Apart [')'] [.closeParen] := lexes_mark (by decide) fun _ => rfl
  exact opens.append (inside.append closes fun _ _ => apart_mark) fun _ _ => trivial

/-- Pieces with a comma between them. -/
theorem comma (first : Lexes lexeme Apart piece tokens)
    (second : Lexes lexeme Apart piece' tokens') :
    Lexes lexeme Apart (piece ++ ',' :: ' ' :: piece') (tokens ++ .comma :: tokens') := by
  have mark : Lexes lexeme anywhere [','] [.comma] := lexes_char (by decide) fun _ => rfl
  have blank : Lexes lexeme anywhere [' '] [] := .space rfl
  exact first.append (mark.append (blank.append second fun _ _ => trivial) fun _ _ => trivial)
    fun _ _ => apart_mark

/-- A word with a piece in parentheses behind it. -/
theorem called {word : String} (isWord : IsWord word) (inside : Lexes lexeme Apart piece tokens) :
    Lexes lexeme Apart (word.toList ++ '(' :: (piece ++ [')'])) (calledTokens word tokens) :=
  (lexes_keyword isWord).append (parens inside) fun _ _ => apart_mark

end Reading.Lexes

/-! #### Strings -/

theorem stringLength_double (text rest : List Char) (ends : ∀ c ∈ rest.head?, c ≠ '\'')
    (count : Nat) (close : Option Nat) :
    stringLength count close (double text ++ '\'' :: rest) =
      some (count + (double text).length + 1) := by
  induction text generalizing count close with
  | nil =>
    rw [double, List.nil_append]
    cases rest with
    | nil => rfl
    | cons c rest =>
      rw [stringLength]
      · rfl
      · rintro _ ⟨⟩
        exact ends '\'' rfl rfl
  | cons c text ih =>
    by_cases isQuote : c = '\''
    · subst isQuote
      rw [double, if_pos rfl, List.cons_append, List.cons_append, stringLength, ih]
      simp only [List.length_cons]
      exact congrArg some (by omega)
    · rw [double, if_neg isQuote, List.cons_append, stringLength, ih]
      · simp only [List.length_cons]
        exact congrArg some (by omega)
      all_goals simp [isQuote]

/-- A quoted text is a token as a whole in front of everything but another quote. -/
theorem lexeme_quote (text : String) {rest : List Char} (ends : ∀ c ∈ rest.head?, c ≠ '\'') :
    lexeme '\'' (double text.toList ++ ['\''] ++ rest) =
      .token (.string (quote text)) (double text.toList ++ ['\'']).length := by
  have length := stringLength_double text.toList rest ends 0 none
  rw [Nat.zero_add] at length
  have shape : double text.toList ++ ['\''] ++ rest = double text.toList ++ '\'' :: rest := by simp
  have whole : quote text = String.ofList ('\'' :: (double text.toList ++ ['\''])) := rfl
  have taken : (double text.toList ++ ['\''] ++ rest).take ((double text.toList).length + 1) =
      double text.toList ++ ['\''] := by
    rw [show (double text.toList).length + 1 = (double text.toList ++ ['\'']).length by simp,
      List.take_left]
  rw [shape] at taken ⊢
  simp only [lexeme, stringLexeme, length, taken, whole, List.length_append, List.length_singleton]

theorem lexes_quote (text : String) :
    Lexes lexeme Apart (quote text).toList [.string (quote text)] := by
  rw [toList_quote, encode]
  exact .token (by decide) fun rest apart => lexeme_quote text fun c found => (apart c found).2.2

/-- Two quotes for one are one again. -/
theorem collapse_double (text : List Char) : collapse '\'' (double text) = text := by
  induction text with
  | nil => rfl
  | cons c text ih =>
    by_cases isQuote : c = '\''
    · subst isQuote
      rw [double, if_pos rfl, collapse, if_pos ⟨rfl, rfl⟩, ih]
    · rw [double, if_neg isQuote]
      cases inside : double text with
      | nil =>
        rw [inside] at ih
        rw [collapse, ← ih]
        rfl
      | cons d rest => rw [collapse, if_neg (fun both => isQuote both.1), ← inside, ih]

theorem unquote_quote (text : String) : unquote (quote text) = text := by
  apply String.toList_injective
  rw [toList_unquote, toList_quote, encode]
  cases inside : double text.toList with
  | nil =>
    have empty := collapse_double text.toList
    rw [inside] at empty
    rw [← empty]
    rfl
  | cons c rest =>
    have last : (c :: (rest ++ ['\''])).getLast? = some '\'' := by
      rw [← List.cons_append, List.getLast?_append, List.getLast?_singleton]
      rfl
    have inner : (c :: (rest ++ ['\''])).dropLast = c :: rest := by
      rw [← List.cons_append, List.dropLast_concat]
    rw [List.cons_append, decode, if_pos ⟨.inl rfl, last⟩, inner, ← inside, collapse_double]

/-! #### Constants -/

theorem lexes_signed {numeral : List Char} {token : Token} (negative : Bool)
    (lexes : Lexes lexeme Apart numeral [token]) :
    Lexes lexeme Apart (if negative then '(' :: ('-' :: numeral ++ [')']) else numeral)
      (signedTokens negative token) := by
  have minus : Lexes lexeme anywhere ['-'] [.minus] := lexes_char (by decide) fun _ => rfl
  cases negative with
  | true => exact .parens (minus.append lexes fun _ _ => trivial)
  | false => exact lexes

theorem toList_signedText (value : Int) :
    (Constant.signedText value).toList =
      if value < 0 then '(' :: ('-' :: (toString value.natAbs).toList ++ [')'])
      else (toString value.natAbs).toList := by
  rw [Constant.signedText, Number.Reader.toString_int]
  split_ifs <;> simp [toString_text]

theorem lexes_integer (value : Int) :
    Lexes lexeme Apart (Constant.signedText value).toList (integerTokens value) := by
  have signed := lexes_signed (value < 0) (lexes_natural value.natAbs)
  simpa only [toList_signedText, integerTokens, decide_eq_true_eq] using signed

theorem isWord_name (type : DataType) : IsWord type.name := by
  cases type <;> decide

theorem toList_castText (text : String) (type : DataType) :
    (Constant.castText text type).toList =
      "CAST".toList ++ '(' :: (text.toList ++ ' ' :: ("AS".toList ++ ' ' :: type.name.toList) ++ [')']) := by
  simp [Constant.castText, toString_text]

theorem lexes_cast {text : String} {tokens : List Token}
    (lexes : Lexes lexeme Apart text.toList tokens) (type : DataType) :
    Lexes lexeme Apart (Constant.castText text type).toList (castTokens tokens type) := by
  have target := (lexes_keyword (show IsWord "AS" by decide)).spaced
    (lexes_keyword (isWord_name type))
  have whole := Lexes.called (show IsWord "CAST" by decide) (lexes.spaced target)
  rw [toList_castText]
  exact whole

theorem lexes_double (value : Float) :
    Lexes lexeme Apart (Constant.doubleText value).toList (Constant.doubleTokens value) := by
  unfold Constant.doubleText Constant.doubleTokens
  cases known : Number.Binary64.kind value with
  | nan => exact lexes_cast (lexes_quote _) .double
  | infinite negative => exact lexes_cast (lexes_quote _) .double
  | finite parts =>
    have signed := lexes_signed parts.negative
      (lexes_decimal (Number.Layout.isDecimal_magnitude parts))
    simp only [Number.Binary64.isNegative, Number.Layout.write, known]
    cases negative : parts.negative with
    | true => simpa [negative, toString_text] using signed
    | false => simpa [negative] using signed

theorem lexes_constant (value : Constant) : Lexes lexeme Apart value.text.toList value.tokens := by
  cases value with
  | boolean value => cases value <;> exact lexes_keyword (by decide)
  | null => exact lexes_keyword (by decide)
  | string value => exact lexes_quote value
  | integer value => exact lexes_integer _
  | byte value => exact lexes_cast (lexes_integer _) _
  | short value => exact lexes_cast (lexes_integer _) _
  | long value =>
    rw [Constant.text, Constant.tokens]
    split_ifs
    · exact lexes_cast (lexes_integer _) _
    · exact lexes_integer _
  | datetime ms => exact lexes_cast (lexes_integer _) _
  | double value => exact lexes_double value

/-! ### Levels -/

namespace Constant

def doubleLevels (value : Float) : Nat :=
  match Number.Binary64.kind value with
  | .finite parts => parts.negative.toNat
  | _ => 1

/-- How many levels reading the text of a constant goes down. -/
def levels : Constant → Nat
  | integer value => (value.toInt < 0 : Bool).toNat
  | byte value => (value.toInt < 0 : Bool).toNat + 1
  | short value => (value.toInt < 0 : Bool).toNat + 1
  | long value =>
    (value.toInt < 0 : Bool).toNat + (Number.Width.int32? value.toInt).isSome.toNat
  | datetime ms => (ms.toInt < 0 : Bool).toNat + 1
  | double value => doubleLevels value
  | _ => 0

end Constant

/-- The piece is nested deep enough for so many levels: two for a pair of parentheses. -/
def NestedFor (levels : Nat) (piece : List Char) : Prop :=
  ∃ height, Text.Nests piece height ∧ levels ≤ 2 * height

namespace NestedFor

variable {levels levels' : Nat} {piece piece' : List Char}

theorem append (first : NestedFor levels piece) (second : NestedFor levels' piece') :
    NestedFor (max levels levels') (piece ++ piece') := by
  obtain ⟨height, nests, enough⟩ := first
  obtain ⟨height', nests', enough'⟩ := second
  exact ⟨max height height', nests.append nests', by omega⟩

theorem mono (nested : NestedFor levels piece) (fewer : levels' ≤ levels) :
    NestedFor levels' piece := by
  obtain ⟨height, nests, enough⟩ := nested
  exact ⟨height, nests, fewer.trans enough⟩

theorem parens (inside : NestedFor levels piece) :
    NestedFor (levels + 2) ('(' :: (piece ++ [')'])) := by
  obtain ⟨height, nests, enough⟩ := inside
  exact ⟨height + 1, nests.paren, by omega⟩

theorem flat (each : piece.all Text.isPlain = true) : NestedFor 0 piece :=
  ⟨0, .plain each, Nat.zero_le _⟩

theorem word {text : String} (isWord : IsWord text) : NestedFor 0 text.toList := by
  refine flat (List.all_eq_true.2 fun c found => ?_)
  exact Text.isPlain_of (List.all_eq_true.1 isWord.all c found) (by decide)

theorem quote (text : String) : NestedFor 0 (quote text).toList := by
  rw [toList_quote]
  exact ⟨0, .encode _, Nat.le_refl _⟩

theorem spaced (first : NestedFor levels piece) (second : NestedFor levels' piece') :
    NestedFor (max levels levels') (piece ++ ' ' :: piece') := by
  have blank : NestedFor 0 [' '] := flat (by decide)
  simpa using first.append (blank.append second)

theorem comma (first : NestedFor levels piece) (second : NestedFor levels' piece') :
    NestedFor (max levels levels') (piece ++ ',' :: ' ' :: piece') := by
  have mark : NestedFor 0 [',', ' '] := flat (by decide)
  simpa using first.append (mark.append second)

theorem called {word : String} (isWord : IsWord word) (inside : NestedFor levels piece) :
    NestedFor (levels + 2) (word.toList ++ '(' :: (piece ++ [')'])) := by
  simpa using (NestedFor.word isWord).append inside.parens

theorem signed {numeral : List Char} (negative : Bool)
    (digits : numeral.all Text.isPlain = true) :
    NestedFor negative.toNat (if negative then '(' :: ('-' :: numeral ++ [')']) else numeral) := by
  cases negative with
  | true =>
    have inside : NestedFor 0 ('-' :: numeral) := flat (by rw [List.all_cons, digits]; rfl)
    exact inside.parens.mono (by decide)
  | false => exact flat digits

theorem integer (value : Int) :
    NestedFor (value < 0 : Bool).toNat (Constant.signedText value).toList := by
  have whole := signed (value < 0) (Number.Reader.isPlain_toString value.natAbs)
  simpa only [toList_signedText, decide_eq_true_eq] using whole

theorem cast {text : String} (inside : NestedFor levels text.toList) (type : DataType) :
    NestedFor (levels + 1) (Constant.castText text type).toList := by
  have target := (NestedFor.word (show IsWord "AS" by decide)).spaced (word (isWord_name type))
  have whole := called (show IsWord "CAST" by decide) (inside.spaced target)
  rw [toList_castText]
  refine NestedFor.mono (by simpa using whole) (by omega)

theorem double (value : Float) :
    NestedFor (Constant.doubleLevels value) (Constant.doubleText value).toList := by
  unfold Constant.doubleText Constant.doubleLevels
  cases known : Number.Binary64.kind value with
  | nan => exact cast (quote _) .double
  | infinite negative => exact cast (quote _) .double
  | finite parts =>
    have whole := signed parts.negative (Number.Layout.isDecimal_magnitude parts).flat
    simp only [Number.Binary64.isNegative, Number.Layout.write, known]
    cases negative : parts.negative with
    | true => simpa [negative, toString_text] using whole
    | false => simpa [negative] using whole

theorem constant (value : Constant) : NestedFor value.levels value.text.toList := by
  cases value with
  | boolean value => cases value <;> exact word (by decide)
  | null => exact word (by decide)
  | string value => exact quote value
  | integer value => exact integer _
  | byte value => exact (integer _).cast _
  | short value => exact (integer _).cast _
  | long value =>
    rw [Constant.text, Constant.levels]
    cases narrow : (Number.Width.int32? value.toInt).isSome with
    | true => exact (integer _).cast _
    | false => exact integer _
  | datetime ms => exact (integer _).cast _
  | double value => exact double value

end NestedFor

/-! ### Reading numbers -/

/-- A number is a decimal if it is not all digits. -/
theorem Number.IsDecimal.not_all {text : List Char} (isDecimal : Number.IsDecimal text) :
    text.all isDigit = false := by
  obtain ⟨first, whole, fraction, exponent, rfl, -, -, isFraction, isExponent, more⟩ := isDecimal
  rw [Bool.eq_false_iff]
  intro digits
  simp only [List.all_cons, List.all_append, Bool.and_eq_true] at digits
  rcases more with more | more
  · obtain ⟨others, -, -, rfl⟩ := isFraction.resolve_left more
    exact absurd (List.all_eq_true.1 digits.2.1.2 '.' List.mem_cons_self) (by decide)
  · obtain ⟨sign, others, -, -, -, rfl⟩ := isExponent.resolve_left more
    exact absurd (List.all_eq_true.1 digits.2.2 'e' List.mem_cons_self) (by decide)

namespace Reading.ExpressionReader

variable {rest : List Token}

/-- Digits with or without a minus are read as the word with that value. -/
theorem reads_integer {n : Nat} {negative : Bool} {word : Int64}
    (same : word.toInt = if negative then -(n : Int) else n) (span : Span) :
    Reads (numberConstant (toString n) negative span) rest rest (· = .ofInteger word) := by
  have digits : (toString n).toList.all isDigit = true := by
    rw [Number.Reader.toList_toString]
    exact Number.Reader.all_isDigit_toDigits _
  have read : Number.Reader.integer? (if negative then "-" ++ toString n else toString n).toList =
      some word.toInt := by
    rw [same]
    cases negative with
    | true => simpa [Number.Reader.toList_toString] using Number.Reader.integer?_minus n
    | false => simpa [Number.Reader.toList_toString] using Number.Reader.integer?_toDigits n
  simp only [numberConstant, digits, if_true, read, Option.bind_some, Number.Width.int64?_toInt]
  exact .pure rfl

theorem reads_decimal {text : List Char} {value : Float} (isDecimal : Number.IsDecimal text)
    (read : Number.Reader.decimal? text = some value) (negative : Bool) (span : Span) :
    Reads (numberConstant (String.ofList text) negative span) rest rest
      (· = .double (if negative then -value else value)) := by
  have signed : Number.Reader.decimal?
      (if negative then "-" ++ String.ofList text else String.ofList text).toList =
        some (if negative then -value else value) := by
    cases negative with
    | true => simpa using Number.Reader.decimal?_neg isDecimal read
    | false => simpa using read
  simp only [numberConstant, String.toList_ofList, isDecimal.not_all, Bool.false_eq_true, if_false,
    signed]
  exact .pure rfl

end Reading.ExpressionReader

/-! ### Signs -/

namespace Constant

/-- What is read of a minus in front of the text of a constant, if that is a numeral. -/
def negated? : Constant → Option Constant
  | integer value =>
    if value.toInt < 0 then none else some (ofInteger (Int64.ofInt (-value.toInt)))
  | long value =>
    if value.toInt < 0 ∨ (Number.Width.int32? value.toInt).isSome then none
    else some (ofInteger (Int64.ofInt (-value.toInt)))
  | double value =>
    match Number.Binary64.kind value with
    | .finite parts => if parts.negative then none else some (double (-value))
    | _ => none
  | _ => none

end Constant

namespace Number.Width

theorem toInt_of_int32? {n : Int} {w : Int32} (h : int32? n = some w) : w.toInt = n := by
  unfold int32? at h
  split at h
  · rename_i range
    cases h
    exact Int32.toInt_ofInt_of_le (by simpa using range.1) (by simpa using range.2)
  · cases h

theorem int32?_toInt (w : Int32) : int32? w.toInt = some w := by
  have low := w.le_toInt
  have high := w.toInt_lt
  rw [int32?, if_pos ⟨by simpa using low, by simpa using high⟩, Int32.ofInt_toInt]

theorem int16?_toInt (w : Int16) : int16? w.toInt = some w := by
  have low := w.le_toInt
  have high := w.toInt_lt
  rw [int16?, if_pos ⟨by simpa using low, by simpa using high⟩, Int16.ofInt_toInt]

theorem int8?_toInt (w : Int8) : int8? w.toInt = some w := by
  have low := w.le_toInt
  have high := w.toInt_lt
  rw [int8?, if_pos ⟨by simpa using low, by simpa using high⟩, Int8.ofInt_toInt]

end Number.Width

namespace Constant

theorem ofInteger_toInt {value : Int32} {word : Int64} (same : word.toInt = value.toInt) :
    ofInteger word = integer value := by
  rw [ofInteger, same, Number.Width.int32?_toInt]

theorem ofInteger_wide {word : Int64} (wide : Number.Width.int32? word.toInt = none) :
    ofInteger word = long word := by
  rw [ofInteger, wide]

/-- An integer literal goes to other integral types by its value. -/
theorem cast_ofInteger {word : Int64} {target : DataType}
    (integral : target = .byte ∨ target = .short ∨ target = .datetime ∨
      target = .long ∧ (Number.Width.int32? word.toInt).isSome = true) :
    (ofInteger word).cast target = ofIntegral word.toInt target := by
  unfold ofInteger
  split
  · rename_i narrow known
    rw [← Number.Width.toInt_of_int32? known]
    rcases integral with rfl | rfl | rfl | ⟨rfl, -⟩ <;> rfl
  · rename_i wide
    rcases integral with rfl | rfl | rfl | ⟨rfl, narrow⟩
    · rfl
    · rfl
    · rfl
    · rw [wide] at narrow
      cases narrow

end Constant

end EventQuery
