import Mathlib.Data.Nat.Digits.Defs
import EventQuery.Number.Reader
import EventQuery.Number.Width
import EventQuery.Proofs.Nesting

/-!
Integers and their decimal text: what is written reads back, and is a run of digits
behind an optional minus.
-/
namespace EventQuery.Number.Reader

/-! ### Natural numbers -/

theorem digitsValue_eq (digits : List Char) :
    digitsValue digits = Nat.ofDigitChars 10 digits 0 := by
  simp only [digitsValue, digitValue, Nat.ofDigitChars_eq_foldl, Nat.mul_comm]

theorem digitsValue_toDigits (n : Nat) : digitsValue (Nat.toDigits 10 n) = n := by
  rw [digitsValue_eq, Nat.ofDigitChars_ten_toDigits]

theorem isDigit_of_mem_toDigits {n : Nat} {c : Char} (found : c ∈ Nat.toDigits 10 n) :
    isDigit c = true := by
  have known := Nat.isDigit_of_mem_toDigits (by decide) (by decide) found
  simpa [Char.isDigit, isDigit, Char.le_def, UInt32.le_iff_toNat_le] using known

theorem all_isDigit_toDigits (n : Nat) : (Nat.toDigits 10 n).all isDigit = true :=
  List.all_eq_true.2 fun _ => isDigit_of_mem_toDigits

theorem natural?_toDigits (n : Nat) : natural? (Nat.toDigits 10 n) = some n := by
  rw [natural?, if_pos ⟨Nat.toDigits_ne_nil, all_isDigit_toDigits n⟩, digitsValue_toDigits]

/-- The digits of a natural number are not empty, and start with a digit. -/
theorem exists_toDigits_eq_cons (n : Nat) :
    ∃ first rest, Nat.toDigits 10 n = first :: rest ∧ isDigit first = true ∧
      rest.all isDigit = true := by
  cases shape : Nat.toDigits 10 n with
  | nil => exact absurd shape Nat.toDigits_ne_nil
  | cons first rest =>
    have digits := all_isDigit_toDigits n
    rw [shape, List.all_cons, Bool.and_eq_true] at digits
    exact ⟨first, rest, rfl, digits⟩

/-! ### Signs -/

theorem toList_toString (n : Nat) : (toString n).toList = Nat.toDigits 10 n := by
  rw [Nat.toString_eq_ofList_toDigits, String.toList_ofList]

theorem isPlain_toString (n : Nat) : (toString n).toList.all Text.isPlain = true := by
  rw [toList_toString]
  exact List.all_eq_true.2 fun c found => Text.isPlain_of (isDigit_of_mem_toDigits found) (by decide)

/-- The text of an integer is that of its magnitude, behind a minus if it is negative. -/
theorem toString_int (n : Int) :
    toString n = if n < 0 then "-" ++ toString n.natAbs else toString n.natAbs := by
  rw [Int.toString_eq_repr, Int.repr_eq_if]
  by_cases negative : n < 0
  · rw [if_neg (by omega), if_pos negative, show (-n).toNat = n.natAbs by omega]
    rfl
  · rw [if_pos (by omega), if_neg negative, show n.toNat = n.natAbs by omega]
    rfl

theorem toString_int64 (word : Int64) :
    toString word = if word.toInt < 0 then "-" ++ toString word.toInt.natAbs
      else toString word.toInt.natAbs := toString_int word.toInt

theorem integer?_minus (n : Nat) : integer? ('-' :: Nat.toDigits 10 n) = some (-n : Int) := by
  simp [integer?, sign, natural?_toDigits]

theorem integer?_toDigits (n : Nat) : integer? (Nat.toDigits 10 n) = some (n : Int) := by
  obtain ⟨first, rest, shape, isFirst, -⟩ := exists_toDigits_eq_cons n
  have unsigned : sign (Nat.toDigits 10 n) = (false, Nat.toDigits 10 n) := by
    rw [shape]
    unfold sign
    split
    · rename_i same
      cases same
      simp [isDigit] at isFirst
    · rename_i same
      cases same
      simp [isDigit] at isFirst
    · rfl
  simp [integer?, unsigned, natural?_toDigits]

/-- The text of the magnitude reads back as the integer, with a minus if that is negative. -/
theorem integer?_magnitude (n : Int) :
    integer? (if n < 0 then "-" ++ toString n.natAbs else toString n.natAbs).toList = some n := by
  by_cases negative : n < 0
  · rw [if_pos negative, String.toList_append, toList_toString]
    refine (integer?_minus n.natAbs).trans (congrArg some ?_)
    omega
  · rw [if_neg negative, toList_toString, integer?_toDigits]
    exact congrArg some (by omega)

end EventQuery.Number.Reader
