import EventQuery.Proofs.Constants
import EventQuery.Proofs.WholeDoubles

/-!
The order of numbers and instants. Whole numbers are compared with each other exactly and with
doubles after rounding, so the comparisons among three constants do not all follow from one linear
order: a double may be equal to two whole numbers that differ. What is left of transitivity is
enough for sorted lists.
-/
namespace EventQuery

open Number.Binary64

/-- What a number or an instant is in comparisons: a whole number, or a double known by its place
among all doubles. -/
inductive Amount where
  | whole (value : Int64)
  | double (place : Int)

namespace Amount

/-- The place of a whole number among the doubles. -/
def widened (value : Int64) : Int := ordinal (Float.ofInt value.toInt)

def AtMost : Amount → Amount → Prop
  | whole a, whole b => a.toInt ≤ b.toInt
  | whole a, double y => widened a ≤ y
  | double x, whole b => x ≤ widened b
  | double x, double y => x ≤ y

instance : DecidableRel AtMost
  | whole a, whole b => inferInstanceAs (Decidable (a.toInt ≤ b.toInt))
  | whole a, double y => inferInstanceAs (Decidable (widened a ≤ y))
  | double x, whole b => inferInstanceAs (Decidable (x ≤ widened b))
  | double x, double y => inferInstanceAs (Decidable (x ≤ y))

/-- Both are whole numbers, or both are doubles. -/
def IsLike : Amount → Amount → Prop
  | whole _, whole _ | double _, double _ => True
  | _, _ => False

theorem widened_mono {a b : Int64} (less : a.toInt ≤ b.toInt) : widened a ≤ widened b :=
  ordinal_ofInt_mono (Int64.le_toInt a) less (Int64.toInt_lt b)

variable {p q r : Amount}

/-- What is below an amount that is at most a third one is at most the third one. Between two whole
numbers a double separates them only if they become different doubles. -/
theorem atMost_of_below (below : ¬q.AtMost p) (less : q.AtMost r) : p.AtMost r := by
  cases p with
  | whole a =>
    cases q with
    | whole b =>
      cases r with
      | whole c =>
        simp only [AtMost] at *
        omega
      | double z =>
        simp only [AtMost] at *
        have := widened_mono (a := a) (b := b) (by omega)
        omega
    | double y =>
      cases r with
      | whole c =>
        simp only [AtMost] at *
        have mono := widened_mono (a := c) (b := a)
        omega
      | double z =>
        simp only [AtMost] at *
        omega
  | double x =>
    cases q with
    | whole b =>
      cases r with
      | whole c =>
        simp only [AtMost] at *
        have := widened_mono less
        omega
      | double z =>
        simp only [AtMost] at *
        omega
    | double y =>
      cases r <;> simp only [AtMost] at * <;> omega

/-- What is at most an amount is at most every larger amount of the same kind. -/
theorem AtMost.trans_like (first : p.AtMost q) (second : q.AtMost r) (like : q.IsLike r) :
    p.AtMost r := by
  cases q with
  | whole b =>
    cases r with
    | double => exact like.elim
    | whole c =>
      cases p with
      | whole a => exact Int.le_trans first second
      | double x => exact Int.le_trans first (widened_mono second)
  | double y =>
    cases r with
    | whole => exact like.elim
    | double z => cases p <;> exact Int.le_trans first second

end Amount

namespace Constant

/-- The amount of a number or an instant. `NULL` and NaN have none. -/
def amount? : Constant → Option Amount
  | byte value => some (.whole value.toInt64)
  | short value => some (.whole value.toInt64)
  | integer value => some (.whole value.toInt64)
  | long value => some (.whole value)
  | datetime ms => some (.whole ms)
  | double value => if isNaN value then none else some (.double (ordinal value))
  | _ => none

variable {a b : Constant} {p q : Amount} {type : DataType}

/-- The types of numbers and instants. -/
def IsMeasured (type : DataType) : Prop := type.isNumeric = true ∨ type = .datetime

instance : DecidablePred IsMeasured := fun _ => inferInstanceAs (Decidable (_ ∨ _))

/-- What is compared with a number or an instant is one, or `NULL`. -/
theorem null_or_isMeasured {measure type' : DataType} (measured : IsMeasured measure)
    (common : DataType.common? type' measure = some type) : type' = .null ∨ IsMeasured type' :=
  have table : ∀ measure ∈ DataType.all, IsMeasured measure → ∀ type' ∈ DataType.all,
      DataType.common? type' measure ≠ none → type' = .null ∨ IsMeasured type' := by decide
  table measure (DataType.mem_all _) measured type' (DataType.mem_all _) (by simp [common])

/-- Numbers and instants are compared as doubles if one of them is a double. -/
theorem ordering_eq (left : IsMeasured a.type) (right : IsMeasured b.type)
    (common : DataType.common? a.type b.type = some type) : ordering a b = .ok
      (if a.type = .double ∨ b.type = .double then
        compareFloat (a.float?.getD 0) (b.float?.getD 0)
      else some (compare (a.integral?.getD 0) (b.integral?.getD 0))) := by
  cases a with
  | boolean | string | null => rcases left with left | left <;> cases left
  | byte | short | integer | long | double | datetime =>
    cases b with
    | boolean | string | null => rcases right with right | right <;> cases right
    | byte | short | integer | long | double | datetime => first | rfl | cases common

/-- What a constant with a whole amount is, as an integer and as a double. -/
theorem whole_of_amount? {value : Int64} (found : a.amount? = some (.whole value)) :
    a.integral? = some value.toInt ∧ a.type ≠ .double ∧
      (a.type ≠ .datetime → a.float? = some (Float.ofInt value.toInt)) := by
  cases a with
  | boolean | string | null => cases found
  | double number =>
    simp only [amount?] at found
    split at found <;> cases found
  | byte | short | integer | long | datetime =>
    obtain rfl := Amount.whole.inj (Option.some.inj found)
    simp [integral?, float?, Constant.type]

theorem double_of_amount? {place : Int} (found : a.amount? = some (.double place)) :
    ∃ number, a = double number ∧ isNaN number = false ∧ ordinal number = place := by
  cases a with
  | double number =>
    simp only [amount?] at found
    split at found
    · cases found
    · rename_i isNumber
      exact ⟨number, rfl, by simpa using isNumber, Amount.double.inj (Option.some.inj found)⟩
  | _ => simp [amount?] at found

theorem isMeasured_of_amount? (found : a.amount? = some p) : IsMeasured a.type := by
  cases a <;> first | exact .inl rfl | exact .inr rfl | cases found

/-- Constants of one type are both whole numbers or both doubles. -/
theorem isLike_of_type_eq (left : a.amount? = some p) (right : b.amount? = some q)
    (same : b.type = a.type) : p.IsLike q := by
  cases p with
  | whole =>
    cases q with
    | whole => trivial
    | double =>
      obtain ⟨number, rfl, -⟩ := double_of_amount? right
      exact absurd same.symm (whole_of_amount? left).2.1
  | double =>
    cases q with
    | double => trivial
    | whole =>
      obtain ⟨number, rfl, -⟩ := double_of_amount? left
      exact absurd same (whole_of_amount? right).2.1

theorem isNaN_widened (value : Int64) : isNaN (Float.ofInt value.toInt) = false :=
  (ordinal_ofInt (Int64.le_toInt value) (Int64.toInt_lt value)).1

/-- Amounts compare as integers do: doubles by their places, and whole numbers too if one of the
two is a double. -/
theorem ordering_eq_some (left : a.amount? = some p) (right : b.amount? = some q)
    (common : DataType.common? a.type b.type = some type) :
    ∃ found, ordering a b = .ok (some found) ∧ (found ≠ .gt ↔ p.AtMost q) ∧
      (found = .lt ↔ ¬q.AtMost p) := by
  rw [ordering_eq (isMeasured_of_amount? left) (isMeasured_of_amount? right) common]
  have integers (i j : Int) : (compare i j ≠ .gt ↔ i ≤ j) ∧ (compare i j = .lt ↔ ¬j ≤ i) := by
    rw [ne_eq, compare_gt_iff_gt, compare_lt_iff_lt]
    omega
  have notInstant {type' : DataType} (mixed : DataType.common? type' .double = some type) :
      type' ≠ .datetime := by
    rintro rfl
    cases mixed
  cases p with
  | whole i =>
    obtain ⟨word, notDouble, widens⟩ := whole_of_amount? left
    cases q with
    | whole j =>
      obtain ⟨word', notDouble', -⟩ := whole_of_amount? right
      rw [if_neg (not_or.2 ⟨notDouble, notDouble'⟩), word, word']
      exact ⟨_, rfl, integers _ _⟩
    | double y =>
      obtain ⟨number, rfl, isNumber, rfl⟩ := double_of_amount? right
      rw [if_pos (.inr rfl), widens (notInstant common)]
      exact ⟨_, congrArg _ (compareFloat_eq (isNaN_widened i) isNumber), integers _ _⟩
  | double x =>
    obtain ⟨number, rfl, isNumber, rfl⟩ := double_of_amount? left
    rw [if_pos (.inl rfl)]
    cases q with
    | whole j =>
      obtain ⟨-, -, widens⟩ := whole_of_amount? right
      rw [DataType.common?_comm] at common
      rw [widens (notInstant common)]
      exact ⟨_, congrArg _ (compareFloat_eq isNumber (isNaN_widened j)), integers _ _⟩
    | double y =>
      obtain ⟨number', rfl, isNumber', rfl⟩ := double_of_amount? right
      exact ⟨_, congrArg _ (compareFloat_eq isNumber isNumber'), integers _ _⟩

/-- Only NaN has no place in the order of numbers and instants. -/
theorem amount?_eq_none (measured : IsMeasured a.type) :
    a.amount? = none ↔ ∃ number, a = double number ∧ isNaN number = true := by
  cases a with
  | boolean | string | null => rcases measured with measured | measured <;> cases measured
  | byte | short | integer | long | datetime => simp [amount?]
  | double number => simp [amount?]

theorem ordering_eq_none (left : IsMeasured a.type) (right : IsMeasured b.type)
    (common : DataType.common? a.type b.type = some type)
    (absent : a.amount? = none ∨ b.amount? = none) : ordering a b = .ok none := by
  rw [ordering_eq left right common]
  rcases absent with absent | absent
  · obtain ⟨number, rfl, notNumber⟩ := (amount?_eq_none left).1 absent
    rw [if_pos (.inl rfl)]
    exact congrArg _ (compareFloat_eq_none.2 (.inl notNumber))
  · obtain ⟨number, rfl, notNumber⟩ := (amount?_eq_none right).1 absent
    rw [if_pos (.inr rfl)]
    exact congrArg _ (compareFloat_eq_none.2 (.inr notNumber))

theorem compareBy_of_ordering (op : Relation) {found : Option Ordering} (left : IsMeasured a.type)
    (right : IsMeasured b.type) (common : DataType.common? a.type b.type = some type)
    (finds : ordering a b = .ok found) : compareBy op a b = .ok (op.holds found) := by
  have present {constant : Constant} (measured : IsMeasured constant.type) :
      constant.isNull = false ∧ constant.type ≠ .null ∧ constant.type ≠ .boolean := by
    cases constant with
    | boolean | string | null => rcases measured with measured | measured <;> cases measured
    | byte | short | integer | long | double | datetime => simp [isNull, Constant.type]
  obtain ⟨notNull, known, notTruth⟩ := present left
  have ordered := DataType.common?_ne_boolean common known notTruth
  simp only [compareBy, common, ordered, false_and, if_false, notNull, (present right).1, finds]
  rfl

/-- How two constants compare that have amounts. -/
theorem compareBy_amounts (left : a.amount? = some p) (right : b.amount? = some q)
    (common : DataType.common? a.type b.type = some type) :
    compareBy .lte a b = .ok (decide (p.AtMost q)) ∧
      compareBy .lt a b = .ok (decide ¬q.AtMost p) := by
  obtain ⟨found, finds, atMost, below⟩ := ordering_eq_some left right common
  have compares (op : Relation) := compareBy_of_ordering op (isMeasured_of_amount? left)
    (isMeasured_of_amount? right) common finds
  rw [compares, compares, ← decide_eq_decide.2 atMost, ← decide_eq_decide.2 below]
  cases found <;> exact ⟨rfl, rfl⟩

/-- Only constants that have a common type are compared. -/
theorem exists_common_of_compareBy {op : Relation} {truth : Bool}
    (compares : compareBy op a b = .ok truth) :
    ∃ type, DataType.common? a.type b.type = some type := by
  cases found : DataType.common? a.type b.type with
  | some type => exact ⟨type, rfl⟩
  | none => simp [compareBy, found] at compares

/-- An amount that is found below another is not reached by it. -/
theorem not_atMost_of_below (left : a.amount? = some p) (right : b.amount? = some q)
    (below : compareBy .lt a b = .ok true) : ¬q.AtMost p := by
  obtain ⟨type, common⟩ := exists_common_of_compareBy below
  rw [(compareBy_amounts left right common).2] at below
  exact of_decide_eq_true (Except.ok.inj below)

theorem compareBy_lt_null (absent : a.isNull = true ∨ b.isNull = true) :
    compareBy .lt a b ≠ .ok true := by
  intro holds
  simp only [compareBy, Bool.or_eq_true, absent, if_true] at holds
  split at holds
  · split at holds <;> cases holds
  · cases holds

/-- Of two constants, the first below the second, none is `NULL` or NaN. -/
theorem exists_amounts_of_below (left : a.type = .null ∨ IsMeasured a.type)
    (right : b.type = .null ∨ IsMeasured b.type) (below : compareBy .lt a b = .ok true) :
    (∃ p, a.amount? = some p) ∧ ∃ q, b.amount? = some q := by
  have present := mt compareBy_lt_null (not_not.2 below)
  rw [not_or, isNull_iff, isNull_iff] at present
  replace left := left.resolve_left present.1
  replace right := right.resolve_left present.2
  obtain ⟨type, common⟩ := exists_common_of_compareBy below
  have amounts : ¬(a.amount? = none ∨ b.amount? = none) := by
    intro absent
    have unordered := ordering_eq_none left right common absent
    rw [compareBy_of_ordering .lt left right common unordered] at below
    cases below
  simpa only [not_or, ← ne_eq, Option.ne_none_iff_exists'] using amounts

end Constant

end EventQuery
