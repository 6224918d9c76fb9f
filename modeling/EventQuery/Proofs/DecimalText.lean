import EventQuery.Number.Layout
import EventQuery.Proofs.Numerals
import EventQuery.Proofs.Scanning
import EventQuery.Proofs.ShortestDecimal

/-!
The text of doubles. What is written of a finite double is a decimal that is rounded to it,
so that it reads back.
-/
namespace EventQuery.Number

open Reader (isDigit)
open Reading (takeWhile_append dropWhile_append)

/-- Digits, then a point with digits, or an exponent, or both. -/
def IsDecimal (text : List Char) : Prop :=
  ∃ first whole fraction exponent, text = first :: (whole ++ fraction ++ exponent) ∧
    isDigit first = true ∧ whole.all isDigit = true ∧
    (fraction = [] ∨ ∃ digits, digits ≠ [] ∧ digits.all isDigit = true ∧ fraction = '.' :: digits) ∧
    (exponent = [] ∨ ∃ sign digits, (sign = [] ∨ sign = ['-']) ∧ digits ≠ [] ∧
      digits.all isDigit = true ∧ exponent = 'e' :: (sign ++ digits)) ∧
    (fraction ≠ [] ∨ exponent ≠ [])

theorem IsDecimal.flat {text : List Char} (isDecimal : IsDecimal text) :
    text.all Text.isPlain = true := by
  have all {digits : List Char} (known : digits.all isDigit = true) : digits.all Text.isPlain = true :=
    List.all_eq_true.2 fun c found => Text.isPlain_of (List.all_eq_true.1 known c found) (by decide)
  obtain ⟨first, whole, fraction, exponent, rfl, isFirst, digits, isFraction, isExponent, -⟩ :=
    isDecimal
  have plainFraction : fraction.all Text.isPlain = true := by
    rcases isFraction with rfl | ⟨more, -, each, rfl⟩
    · rfl
    · rw [List.all_cons, all each]
      rfl
  have plainExponent : exponent.all Text.isPlain = true := by
    rcases isExponent with rfl | ⟨sign, more, rfl | rfl, -, each, rfl⟩
    · rfl
    · rw [List.nil_append, List.all_cons, all each]
      rfl
    · rw [List.singleton_append, List.all_cons, List.all_cons, all each]
      rfl
  rw [List.all_cons, List.all_append, List.all_append, all digits, plainFraction, plainExponent,
    Text.isPlain_of isFirst (by decide)]
  rfl

namespace Reader

variable {whole fraction rest : List Char}

/-! ### Digits -/

theorem digitsValue_append (digits others : List Char) :
    digitsValue (digits ++ others) = digitsValue digits * 10 ^ others.length + digitsValue others := by
  induction others using List.reverseRecOn with
  | nil => simp [digitsValue]
  | append_singleton others c ih =>
    have last (digits : List Char) : digitsValue (digits ++ [c]) = digitsValue digits * 10 + digitValue c := by
      simp [digitsValue]
    rw [← List.append_assoc, last, last, ih, List.length_append, List.length_singleton, Nat.pow_succ]
    ring

theorem digitsValue_zeros (n : Nat) : digitsValue (Layout.zeros n) = 0 := by
  induction n with
  | zero => rfl
  | succ n ih =>
    rw [Layout.zeros, List.replicate_succ', digitsValue_append, ← Layout.zeros, ih]
    rfl

theorem all_isDigit_zeros (n : Nat) : (Layout.zeros n).all isDigit = true := by
  rw [Layout.zeros, List.all_replicate]
  simp [isDigit]

/-! ### Decimals -/

/-- The exponent of a decimal behind its digits. -/
def exponentText (exponent : Int) : List Char :=
  'e' :: ((if exponent < 0 then ['-'] else []) ++ Nat.toDigits 10 exponent.natAbs)

theorem exponent?_exponentText (exponent : Int) :
    exponent? (exponentText exponent) = some exponent := by
  rw [exponentText, exponent?, if_pos (.inl rfl)]
  split_ifs with negative
  · rw [List.singleton_append, integer?_minus]
    exact congrArg some (by omega)
  · rw [List.nil_append, integer?_toDigits]
    exact congrArg some (by omega)

/-- Digits with a point among them, and an exponent. -/
theorem unsigned?_point (digits : whole.all isDigit = true) (others : fraction.all isDigit = true)
    (nonempty : whole ≠ []) (stops : ∀ c ∈ rest.head?, isDigit c = false) :
    unsigned? (whole ++ '.' :: (fraction ++ rest)) = (exponent? rest).map fun exponent =>
      ofDecimal (digitsValue (whole ++ fraction)) (exponent - fraction.length) := by
  have point : ∀ c ∈ ('.' :: (fraction ++ rest)).head?, isDigit c = false := by
    rintro _ ⟨⟩
    decide
  simp only [unsigned?, takeWhile_append digits point, dropWhile_append digits point,
    takeWhile_append others stops, dropWhile_append others stops, nonempty, false_and, if_false]

/-- Digits without a point, and an exponent. -/
theorem unsigned?_plain (digits : whole.all isDigit = true) (nonempty : whole ≠ [])
    (stops : ∀ c ∈ rest.head?, isDigit c = false ∧ c ≠ '.') :
    unsigned? (whole ++ rest) = (exponent? rest).map (ofDecimal (digitsValue whole)) := by
  have ends : ∀ c ∈ rest.head?, isDigit c = false := fun c found => (stops c found).1
  unfold unsigned?
  rw [takeWhile_append digits ends, dropWhile_append digits ends]
  dsimp only
  split
  · exact absurd rfl (stops '.' rfl).2
  · rw [if_neg (by simp [nonempty])]
    simp

theorem toLower_of_isDigit {c : Char} (digit : isDigit c = true) : c.toLower = c := by
  simp only [isDigit, Bool.and_eq_true, decide_eq_true_eq, Char.le_def] at digit
  rw [Char.toLower, dif_neg]
  rintro ⟨upper, -⟩
  exact absurd (UInt32.le_trans upper digit.2) (by decide)

/-- Behind its sign a text that starts with a digit is no word. -/
theorem decimal?_eq_map {first : Char} {text rest : List Char} {negative : Bool}
    (digit : isDigit first = true) (signed : sign text = (negative, first :: rest)) :
    decimal? text = (unsigned? (first :: rest)).map fun x => if negative then -x else x := by
  have other (letter : Char) (letters : List Char) (isLetter : isDigit letter = false) :
      String.ofList ((first :: rest).map Char.toLower) ≠ String.ofList (letter :: letters) := by
    intro same
    have letters := congrArg String.toList same
    rw [String.toList_ofList, String.toList_ofList, List.map_cons, toLower_of_isDigit digit] at letters
    rw [(List.cons.inj letters).1, isLetter] at digit
    cases digit
  have inf := other 'i' ['n', 'f'] (by decide)
  have infinity := other 'i' ['n', 'f', 'i', 'n', 'i', 't', 'y'] (by decide)
  have nan := other 'n' ['a', 'n'] (by decide)
  rw [decimal?, signed]
  dsimp only
  rw [if_neg (not_or.2 ⟨inf, infinity⟩), if_neg nan]

theorem decimal?_eq_unsigned? {first : Char} {rest : List Char} (digit : isDigit first = true) :
    decimal? (first :: rest) = unsigned? (first :: rest) := by
  have unsigned : sign (first :: rest) = (false, first :: rest) := by
    unfold sign
    split
    · rename_i same
      cases same
      cases digit
    · rename_i same
      cases same
      cases digit
    · rfl
  rw [decimal?_eq_map digit unsigned]
  simp

end Reader

/-! ### Texts of decimals -/

/-- What stands behind the digits of a decimal: nothing, or an exponent. -/
inductive Ending : List Char → Int → Prop where
  | none : Ending [] 0
  | exponent (exponent : Int) : Ending (Reader.exponentText exponent) exponent

namespace Ending

variable {rest : List Char} {exponent : Int}

theorem read (ending : Ending rest exponent) : Reader.exponent? rest = some exponent := by
  cases ending with
  | none => rfl
  | exponent => exact Reader.exponent?_exponentText exponent

theorem stops (ending : Ending rest exponent) : ∀ c ∈ rest.head?, isDigit c = false ∧ c ≠ '.' := by
  cases ending with
  | none => rintro _ ⟨⟩
  | exponent =>
    rintro _ ⟨⟩
    decide

theorem shape (ending : Ending rest exponent) :
    rest = [] ∨ ∃ sign digits, (sign = [] ∨ sign = ['-']) ∧
      digits ≠ [] ∧ digits.all isDigit = true ∧ rest = 'e' :: (sign ++ digits) := by
  cases ending with
  | none => exact .inl rfl
  | exponent =>
    refine .inr ⟨_, _, ?_, Nat.toDigits_ne_nil, Reader.all_isDigit_toDigits _, rfl⟩
    split_ifs
    · exact .inr rfl
    · exact .inl rfl

end Ending

/-- A text of digits that is read as a decimal of this value. -/
def Spells (text : List Char) (value : ℚ) : Prop :=
  IsDecimal text ∧ ∃ (digits : Nat) (exponent : Int), (digits * 10 ^ exponent : ℚ) = value ∧
    Reader.decimal? text = some (Reader.ofDecimal digits exponent)

theorem spells_point (first : Char) (whole fraction : List Char) {rest : List Char} {exponent : Int}
    (digit : isDigit first = true) (digits : whole.all isDigit = true)
    (others : fraction.all isDigit = true) (nonempty : fraction ≠ []) (ending : Ending rest exponent) :
    Spells (first :: (whole ++ '.' :: (fraction ++ rest)))
      (Reader.digitsValue (first :: (whole ++ fraction)) * 10 ^ (exponent - fraction.length)) := by
  refine ⟨⟨first, whole, '.' :: fraction, rest, by simp, digit, digits,
    .inr ⟨fraction, nonempty, others, rfl⟩, ending.shape, .inl (List.cons_ne_nil _ _)⟩, _, _, rfl, ?_⟩
  have all : (first :: whole).all isDigit = true := by simp [digit, digits]
  rw [Reader.decimal?_eq_unsigned? digit, ← List.cons_append, Reader.unsigned?_point all others
    (List.cons_ne_nil _ _) fun c found => (ending.stops c found).1, ending.read]
  rfl

theorem spells_plain {first : Char} {whole : List Char} (exponent : Int)
    (digit : isDigit first = true) (digits : whole.all isDigit = true) :
    Spells (first :: (whole ++ Reader.exponentText exponent))
      (Reader.digitsValue (first :: whole) * 10 ^ exponent) := by
  have ending : Ending (Reader.exponentText exponent) exponent := .exponent exponent
  refine ⟨⟨first, whole, [], _, by rw [List.append_nil], digit, digits, .inl rfl, ending.shape,
    .inr (List.cons_ne_nil _ _)⟩, _, _, rfl, ?_⟩
  have all : (first :: whole).all isDigit = true := by simp [digit, digits]
  rw [Reader.decimal?_eq_unsigned? digit, ← List.cons_append, Reader.unsigned?_plain all
    (List.cons_ne_nil _ _) ending.stops, ending.read]
  rfl

theorem Spells.congr {text text' : List Char} {value value' : ℚ} (spells : Spells text value)
    (same : text' = text) (equal : value' = value) : Spells text' value' := same ▸ equal ▸ spells

/-! ### Layouts -/

namespace Layout

open Reader (digitsValue)

variable {first : Char} {digits : List Char}

theorem digitsValue_zeros_append (n : Nat) (digits : List Char) :
    digitsValue (zeros n ++ digits) = digitsValue digits := by
  rw [Reader.digitsValue_append, Reader.digitsValue_zeros, Nat.zero_mul, Nat.zero_add]

theorem digitsValue_append_zeros (n : Nat) (digits : List Char) :
    digitsValue (digits ++ zeros n) = digitsValue digits * 10 ^ n := by
  rw [Reader.digitsValue_append, Reader.digitsValue_zeros, Nat.add_zero, zeros, List.length_replicate]

/-- Positional writing keeps the value of the digits. -/
theorem spells_positional (digit : isDigit first = true) (all : digits.all isDigit = true)
    (leading : Int) : Spells (positional literal (first :: digits) leading)
      (digitsValue (first :: digits) * 10 ^ (leading - digits.length)) := by
  unfold positional
  by_cases small : leading < 0
  · rw [if_pos small]
    have others : (zeros (-leading - 1).toNat ++ first :: digits).all isDigit = true := by
      simp [digit, all, Reader.all_isDigit_zeros]
    refine (spells_point '0' [] _ (by decide) rfl others (by simp) .none).congr
      (by rw [List.append_nil, List.nil_append]) ?_
    rw [List.nil_append, ← digitsValue_zeros_append ((-leading - 1).toNat + 1) (first :: digits), zeros,
      List.replicate_succ, List.cons_append, ← zeros, List.length_append, zeros, List.length_replicate,
      List.length_cons]
    congr 2
    push_cast
    omega
  · rw [if_neg small]
    dsimp only
    split_ifs with short pointZero
    · have others : (digits ++ zeros (leading.toNat + 1 - (first :: digits).length)).all isDigit = true := by
        simp [all, Reader.all_isDigit_zeros]
      refine (spells_point first _ ['0'] digit others (by decide) (List.cons_ne_nil _ _) .none).congr
        (by simp) ?_
      rw [show ['0'] = zeros 1 from rfl, ← List.cons_append, digitsValue_append_zeros, ← List.cons_append,
        digitsValue_append_zeros, show leading - digits.length =
          ((leading.toNat + 1 - (first :: digits).length : Nat) : Int) by
            simp only [List.length_cons] at short ⊢
            omega, zpow_natCast, show (zeros 1).length = 1 from rfl]
      push_cast
      norm_num
      ring
    · exact absurd rfl pointZero
    · rw [List.length_cons] at short
      have split := List.take_append_drop leading.toNat digits
      have more : digits.drop leading.toNat ≠ [] := by
        rw [ne_eq, List.drop_eq_nil_iff]
        omega
      rw [← split, List.all_append, Bool.and_eq_true] at all
      refine (spells_point first _ _ digit all.1 all.2 more .none).congr (by simp) ?_
      rw [split, List.length_drop]
      congr 2
      omega

/-- Scientific writing keeps the value of the digits. -/
theorem spells_scientific (digit : isDigit first = true) (all : digits.all isDigit = true)
    (leading : Int) : Spells (scientific literal (first :: digits) leading)
      (digitsValue (first :: digits) * 10 ^ (leading - digits.length)) := by
  have exponent : 'e' :: ((if leading < 0 then ['-'] else if literal.exponentPlus then ['+'] else []) ++
      (toString leading.natAbs).toList) = Reader.exponentText leading := by
    rw [Reader.toList_toString]
    rfl
  unfold scientific
  dsimp only
  rw [exponent]
  cases digits with
  | nil =>
    refine (spells_plain leading digit all).congr rfl ?_
    rw [List.length_nil, Nat.cast_zero, sub_zero]
  | cons second rest =>
    exact (spells_point first [] _ digit rfl all (List.cons_ne_nil _ _) (.exponent leading)).congr rfl rfl

open Shortest in
/-- The text of a finite number is a decimal that is rounded to it. -/
theorem spells_magnitude (parts : Binary64.Parts) :
    Spells (magnitude literal parts)
      ((shortest literal.tie parts.mantissa parts.exponent).digits *
        10 ^ (shortest literal.tie parts.mantissa parts.exponent).exponent) := by
  unfold magnitude
  dsimp only
  generalize shortest literal.tie parts.mantissa parts.exponent = decimal
  obtain ⟨first, rest, shape, digit, all⟩ := Reader.exists_toDigits_eq_cons decimal.digits
  have value : digitsValue (first :: rest) = decimal.digits := by
    rw [← shape, Reader.digitsValue_toDigits]
  have leading : decimal.exponent + (first :: rest).length - 1 - rest.length = decimal.exponent := by
    rw [List.length_cons]
    push_cast
    ring
  rw [shape]
  split_ifs
  · exact (spells_positional digit all _).congr rfl (by rw [value, leading])
  · exact (spells_scientific digit all _).congr rfl (by rw [value, leading])

theorem isDecimal_magnitude (parts : Binary64.Parts) : IsDecimal (magnitude literal parts) :=
  (spells_magnitude parts).1

end Layout

/-! ### Reading back -/

namespace Reader

open Binary64

/-- What is written of a finite number reads back. -/
theorem decimal?_magnitude {x : Float} {parts : Parts} (finite : kind x = .finite parts)
    (positive : parts.negative = false) :
    decimal? (Layout.magnitude Layout.literal parts) = some x := by
  obtain ⟨shift, normal, bits⟩ := exists_normal finite
  by_cases other : parts.mantissa = 0
  · have least : shift = 0 := by
      by_contra larger
      have := normal.full larger
      omega
    have zero : x = Float.ofBits 0 := by
      refine eq_of_toBits (UInt64.toNat_inj.1 ?_)
      rw [bits, positive, least, other]
      rfl
    have text : Layout.magnitude Layout.literal parts = ['0', '.', '0'] := by
      have shortest : Shortest.shortest Layout.literal.tie 0 parts.exponent = ⟨0, 0⟩ := if_pos rfl
      rw [Layout.magnitude, other, shortest]
      decide +kernel
    rw [text, zero]
    decide +kernel
  · obtain ⟨-, digits, exponent, same, read⟩ := Layout.spells_magnitude parts
    rw [read, ofDecimal_eq finite positive other]
    rw [same]
    exact Shortest.roundsTo_shortest other normal.small

/-- A sign in front of a text of digits is read as one. -/
theorem decimal?_neg {text : List Char} {x : Float} (isDecimal : IsDecimal text)
    (read : decimal? text = some x) : decimal? ('-' :: text) = some (-x) := by
  obtain ⟨first, whole, fraction, exponent, rfl, digit, -⟩ := isDecimal
  rw [decimal?_eq_unsigned? digit] at read
  rw [decimal?_eq_map digit (sign.eq_1 _), read]
  rfl

end Reader

end EventQuery.Number
