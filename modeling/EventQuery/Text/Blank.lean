/-!
White space of the Unicode standard (property `White_Space`), and texts without
the white space around them.
-/
namespace EventQuery.Text.Blank

/-- The code points with the property, as inclusive ranges in ascending order. -/
def ranges : List (Nat × Nat) :=
  [(0x09, 0x0D), (0x20, 0x20), (0x85, 0x85), (0xA0, 0xA0), (0x1680, 0x1680), (0x2000, 0x200A),
    (0x2028, 0x2029), (0x202F, 0x202F), (0x205F, 0x205F), (0x3000, 0x3000)]

def isBlank (c : Char) : Bool :=
  ranges.any fun (low, high) => low ≤ c.toNat && c.toNat ≤ high

def trimStart (text : List Char) : List Char := text.dropWhile isBlank

def trim (text : List Char) : List Char :=
  (trimStart (trimStart text).reverse).reverse

/-- A text without the white space before and after it. -/
def trimmed (text : String) : String := String.ofList (trim text.toList)

theorem length_trimStart_le (text : List Char) : (trimStart text).length ≤ text.length :=
  (List.dropWhile_sublist isBlank).length_le

theorem trimStart_eq_self_iff {text : List Char} :
    trimStart text = text ↔ ∀ c ∈ text.head?, isBlank c = false := by
  cases text with
  | nil => simp [trimStart]
  | cons c rest =>
    rw [List.head?_cons]
    constructor
    · rintro same _ ⟨⟩
      rw [← Bool.not_eq_true]
      intro blank
      have shorter := length_trimStart_le rest
      rw [trimStart, List.dropWhile_cons_of_pos blank] at same
      rw [trimStart, same, List.length_cons] at shorter
      omega
    · intro bare
      exact List.dropWhile_cons_of_neg (by simp [bare c rfl])

/-- A text is not trimmed exactly if it has no white space at its ends. -/
theorem trim_eq_self_iff {text : List Char} :
    trim text = text ↔
      (∀ c ∈ text.head?, isBlank c = false) ∧ ∀ c ∈ text.getLast?, isBlank c = false := by
  rw [← List.head?_reverse, ← trimStart_eq_self_iff, ← trimStart_eq_self_iff, trim]
  constructor
  · intro same
    have start : trimStart text = text := by
      refine (List.dropWhile_suffix isBlank).eq_of_length_le ?_
      have shorter := length_trimStart_le (trimStart text).reverse
      rwa [← List.length_reverse, same, List.length_reverse] at shorter
    rw [start] at same
    exact ⟨start, by rw [← List.reverse_eq_iff, same]⟩
  · rintro ⟨start, stop⟩
    rw [start, stop, List.reverse_reverse]

end EventQuery.Text.Blank
