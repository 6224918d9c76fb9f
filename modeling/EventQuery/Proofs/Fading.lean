import EventQuery.DataType
import Mathlib.Data.Option.Basic

/-!
Types when a value turns out to be `NULL`. A part of some type may have the value
`NULL`, and folding puts this constant in its place, so a type may fade to `NULL`. The
operators between types accept faded operands wherever they accept the types themselves.
-/
namespace EventQuery

namespace DataType

theorem mem_all (type : DataType) : type ∈ all := by
  cases type <;> decide

/-- The second type is the first one, or `NULL` in its place. -/
def Fades (type faded : DataType) : Prop := faded = type ∨ faded = null

namespace Fades

theorem rfl {type : DataType} : Fades type type := .inl (Eq.refl _)

theorem trans {a b c : DataType} (first : Fades a b) (second : Fades b c) : Fades a c := by
  rcases second with rfl | rfl
  · exact first
  · exact .inr (Eq.refl _)

theorem eq_of_ne {type faded : DataType} (fades : Fades type faded) (found : faded ≠ null) :
    faded = type :=
  fades.resolve_right found

theorem of_null {faded : DataType} (fades : Fades null faded) : faded = null :=
  fades.elim id id

end Fades

/-! ### Common types -/

@[simp] theorem common?_null_left (type : DataType) : common? null type = some type := by
  cases type <;> rfl

@[simp] theorem common?_null_right (type : DataType) : common? type null = some type := by
  cases type <;> rfl

theorem common?_comm (a b : DataType) : common? a b = common? b a :=
  have table : ∀ a ∈ all, ∀ b ∈ all, common? a b = common? b a := by decide
  table a (mem_all a) b (mem_all b)

theorem eq_or_eq_of_common? {a b type : DataType} (common : common? a b = some type) :
    type = a ∨ type = b :=
  have table : ∀ a ∈ all, ∀ b ∈ all, ∀ type ∈ common? a b, type = a ∨ type = b := by decide
  table a (mem_all a) b (mem_all b) type common

/-- Truth values are compared with truth values only. -/
theorem common?_eq_boolean {a b type : DataType} (common : common? a b = some type) :
    type = boolean ↔ a = boolean ∨ b = boolean :=
  have table : ∀ a ∈ all, ∀ b ∈ all, ∀ type ∈ common? a b,
      (type = boolean ↔ a = boolean ∨ b = boolean) := by decide
  table a (mem_all a) b (mem_all b) type common

/-- What is compared with a value that is there and no truth value is none either. -/
theorem common?_ne_boolean {a b type : DataType} (common : common? a b = some type)
    (known : a ≠ null) (ordered : a ≠ boolean) : type ≠ boolean :=
  have table : ∀ a ∈ all, a ≠ null → a ≠ boolean → ∀ b ∈ all, ∀ type ∈ common? a b,
      type ≠ boolean := by decide
  table a (mem_all a) known ordered b (mem_all b) type common

/-- Operands that fade stay comparable, and ordered if they were. -/
theorem common?_fades {a b a' b' type : DataType} (common : common? a b = some type)
    (left : Fades a a') (right : Fades b b') :
    ∃ type', common? a' b' = some type' ∧ (type ≠ boolean → type' ≠ boolean) := by
  obtain ⟨type', common'⟩ : ∃ type', common? a' b' = some type' := by
    rcases left with rfl | rfl
    · rcases right with rfl | rfl
      · exact ⟨type, common⟩
      · exact ⟨_, common?_null_right _⟩
    · exact ⟨_, common?_null_left _⟩
  refine ⟨type', common', fun ordered => ?_⟩
  rw [ne_eq, common?_eq_boolean common'] at *
  rw [common?_eq_boolean common] at ordered
  rintro (rfl | rfl)
  · exact ordered (.inl (left.eq_of_ne (by decide)).symm)
  · exact ordered (.inr (right.eq_of_ne (by decide)).symm)

/-- What is compared with the common type of two others can be compared with either of
them. `BETWEEN` is typed in the first way and evaluated in the second. -/
theorem common?_through {value lower upper type type' : DataType}
    (first : common? value lower = some type) (second : common? type upper = some type') :
    ∃ type'', common? value upper = some type'' ∧ (type' ≠ boolean → type'' ≠ boolean) := by
  have table : ∀ value ∈ all, ∀ lower ∈ all, ∀ type ∈ common? value lower, ∀ upper ∈ all,
      common? type upper ≠ none → common? value upper ≠ none := by decide
  obtain ⟨type'', third⟩ := Option.ne_none_iff_exists'.1
    (table value (mem_all _) lower (mem_all _) type first upper (mem_all _) (by simp [second]))
  refine ⟨type'', third, fun ordered => ?_⟩
  rw [ne_eq, common?_eq_boolean second, common?_eq_boolean first] at ordered
  rw [ne_eq, common?_eq_boolean third]
  rintro (rfl | rfl)
  · exact ordered (.inl (.inl rfl))
  · exact ordered (.inr rfl)

end DataType

/-! ### Arithmetic -/

namespace Arithmetic

open DataType

theorem mem_all (op : Arithmetic) : op ∈ all := by
  cases op <;> decide

theorem type?_null (op : Arithmetic) : op.type? null null = some null := by
  cases op <;> rfl

/-- Operands that fade stay within the domain of the operator. -/
theorem type?_fades {op : Arithmetic} {a b a' b' type : DataType} (typed : op.type? a b = some type)
    (left : Fades a a') (right : Fades b b') : ∃ type', op.type? a' b' = some type' := by
  have table : ∀ op ∈ all, ∀ a ∈ DataType.all, ∀ b ∈ DataType.all, op.type? a b ≠ none →
      op.type? null b ≠ none ∧ op.type? a null ≠ none := by decide
  obtain ⟨fadedLeft, fadedRight⟩ :=
    table op (mem_all op) a (DataType.mem_all a) b (DataType.mem_all b) (by simp [typed])
  rw [← Option.ne_none_iff_exists']
  rcases left with rfl | rfl
  · rcases right with rfl | rfl
    · simp [typed]
    · exact fadedRight
  · rcases right with rfl | rfl
    · exact fadedLeft
    · simp [type?_null]

/-- What the operator is evaluated on: numbers for `DOUBLE`, words for the other types. -/
theorem operands_of_type? {op : Arithmetic} {a b type : DataType} (typed : op.type? a b = some type)
    (left : a ≠ null) (right : b ≠ null) :
    type = double ∧ a.isNumeric ∧ b.isNumeric ∨
      (type = long ∨ type = datetime) ∧ (a.isIntegral ∨ a = datetime) ∧
        (b.isIntegral ∨ b = datetime) := by
  have table : ∀ op ∈ all, ∀ a ∈ DataType.all, a ≠ null → ∀ b ∈ DataType.all, b ≠ null →
      ∀ type ∈ op.type? a b, type = double ∧ a.isNumeric ∧ b.isNumeric ∨
        (type = long ∨ type = datetime) ∧ (a.isIntegral ∨ a = datetime) ∧
          (b.isIntegral ∨ b = datetime) := by decide
  exact table op (mem_all op) a (DataType.mem_all a) left b (DataType.mem_all b) right type typed

/-! A faded operand takes the type of the other one, and the result need not be what it
was: a number of days that turns out to be `NULL` makes the difference of two instants of
the difference of an instant and a count. -/

/-- Whether the result has the same type when the left operand fades. -/
def keepsWithoutLeft (left right : DataType) : Bool := left.isIntegral || !right.isIntegral

/-- Whether the result has the same type when the right operand fades. -/
def keepsWithoutRight (op : Arithmetic) (left right : DataType) : Bool :=
  (!left.isIntegral || right.isIntegral)
    && !(op == subtract && left == datetime && right.isIntegral)

private theorem type?_one_null {op : Arithmetic} {a b type : DataType}
    (typed : op.type? a b = some type) (left : a ≠ null) (right : b ≠ null) :
    ((∃ type', op.type? null b = some type' ∧ type.Fades type') ↔
        keepsWithoutLeft a b = true) ∧
      ((∃ type', op.type? a null = some type' ∧ type.Fades type') ↔
        op.keepsWithoutRight a b = true) := by
  have table : ∀ op ∈ all, ∀ a ∈ DataType.all, a ≠ null → ∀ b ∈ DataType.all, b ≠ null →
      ∀ type ∈ op.type? a b,
        (((op.type? null b = some type ∨ op.type? null b = some null) ↔
            keepsWithoutLeft a b = true) ∧
          ((op.type? a null = some type ∨ op.type? a null = some null) ↔
            op.keepsWithoutRight a b = true)) := by decide
  have one (found : Option DataType) : (∃ type', found = some type' ∧ type.Fades type') ↔
      found = some type ∨ found = some null := by
    simp only [Fades, and_or_left, exists_or, exists_eq_right]
  rw [one, one]
  exact table op (mem_all op) a (DataType.mem_all a) left b (DataType.mem_all b) right type typed

/-- When operands fade, the result fades at most, exactly if a single operand that fades
is one the result does without. -/
theorem type?_fades_iff {op : Arithmetic} {a b a' b' type : DataType}
    (typed : op.type? a b = some type) (left : Fades a a') (right : Fades b b') :
    (∃ type', op.type? a' b' = some type' ∧ type.Fades type') ↔
      (a' ≠ a → b' ≠ null → keepsWithoutLeft a b = true) ∧
        (b' ≠ b → a' ≠ null → op.keepsWithoutRight a b = true) := by
  by_cases bothFade : a' = null ∧ b' = null
  · obtain ⟨rfl, rfl⟩ := bothFade
    simp only [ne_eq, not_true_eq_false, false_implies, implies_true, and_self, iff_true]
    exact ⟨null, type?_null op, .inr rfl⟩
  rcases left with rfl | rfl
  · rcases right with rfl | rfl
    · simp only [ne_eq, not_true_eq_false, false_implies, and_self, iff_true]
      exact ⟨type, typed, .rfl⟩
    · have present : a' ≠ null := fun same => bothFade ⟨same, rfl⟩
      by_cases absent : b = null
      · subst absent
        simpa using ⟨type, typed, Fades.rfl⟩
      · simpa [present, absent, Ne.symm absent] using (type?_one_null typed present absent).2
  · rcases right with rfl | rfl
    · have present : b' ≠ null := fun same => bothFade ⟨rfl, same⟩
      by_cases absent : a = null
      · subst absent
        simpa using ⟨type, typed, Fades.rfl⟩
      · simpa [present, absent, Ne.symm absent] using (type?_one_null typed absent present).1
    · exact absurd ⟨rfl, rfl⟩ bothFade

end Arithmetic

end EventQuery
