import Mathlib.Data.List.Basic
import EventQuery.Text.Quoted

/-!
How deep the parentheses of a text are nested. A text that is put together from pieces
with balanced parentheses is as deep as its deepest piece; every pair around a piece
makes it one level deeper. Parentheses inside quotes do not count.
-/
namespace EventQuery.Text

/-- The most parentheses that are open at one place of a text, when `depth` of them are
open before it. `quoted` says whether the text starts inside quotes. -/
def deepest (quoted : Bool) (depth : Nat) : List Char → Nat
  | [] => depth
  | c :: rest =>
    if quoted then deepest (c != '\'') depth rest
    else if c = '(' then deepest false (depth + 1) rest
    else if c = ')' then max depth (deepest false (depth - 1) rest)
    else deepest (c == '\'') depth rest

/-- How deep the parentheses of a text are nested. -/
def nesting (text : String) : Nat := deepest false 0 text.toList

/-- A character that neither opens nor closes nor quotes. -/
def isPlain (c : Char) : Bool := c != '(' && c != ')' && c != '\''

theorem isPlain_of {p : Char → Bool} {c : Char} (known : p c = true)
    (outside : (p '(' || p ')' || p '\'') = false) : isPlain c = true := by
  have apart {mark : Char} (other : p mark = false) : (c != mark) = true := by
    apply bne_iff_ne.2
    rintro rfl
    exact Bool.false_ne_true (other.symm.trans known)
  obtain ⟨either, quotes⟩ := Bool.or_eq_false_iff.1 outside
  obtain ⟨opens, closes⟩ := Bool.or_eq_false_iff.1 either
  rw [isPlain, apart opens, apart closes, apart quotes]
  rfl

/-- Wherever the piece stands outside quotes, it is `height` levels deep and leaves as many
parentheses open as it found. -/
def Nests (piece : List Char) (height : Nat) : Prop :=
  ∀ depth rest, deepest false depth (piece ++ rest) =
    max (depth + height) (deepest false depth rest)

variable {piece piece' : List Char} {height height' : Nat}

theorem le_deepest (quoted : Bool) (depth : Nat) (text : List Char) :
    depth ≤ deepest quoted depth text := by
  induction text generalizing quoted depth with
  | nil => exact Nat.le_refl _
  | cons c rest ih =>
    rw [deepest]
    split_ifs
    · exact ih ..
    · exact Nat.le_of_succ_le (ih ..)
    · exact Nat.le_max_left ..
    · exact ih ..

namespace Nests

theorem nil : Nests [] 0 := fun depth rest => (Nat.max_eq_right (le_deepest false depth rest)).symm

theorem append (first : Nests piece height) (second : Nests piece' height') :
    Nests (piece ++ piece') (max height height') := by
  intro depth rest
  rw [List.append_assoc, first, second]
  omega

theorem paren (inner : Nests piece height) : Nests ('(' :: (piece ++ [')'])) (height + 1) := by
  intro depth rest
  have closes : deepest false (depth + 1) (')' :: rest) =
      max (depth + 1) (deepest false depth rest) := by simp [deepest]
  have opens : deepest false depth ('(' :: (piece ++ (')' :: rest))) =
      deepest false (depth + 1) (piece ++ (')' :: rest)) := by simp [deepest]
  rw [List.cons_append, List.append_assoc, List.singleton_append, opens, inner, closes]
  omega

/-- A character that is no parenthesis and no quote. -/
theorem char {c : Char} (plain : isPlain c = true) : Nests [c] 0 := by
  intro depth rest
  have steps : deepest false depth ([c] ++ rest) = deepest false depth rest := by
    simp only [isPlain, Bool.and_eq_true, bne_iff_ne] at plain
    rw [List.singleton_append, deepest, if_neg Bool.false_ne_true, if_neg plain.1.1,
      if_neg plain.1.2, beq_false_of_ne plain.2]
  rw [steps]
  exact (Nat.max_eq_right (le_deepest false depth rest)).symm

/-- A piece without parentheses and quotes. -/
theorem plain (each : piece.all isPlain = true) : Nests piece 0 := by
  induction piece with
  | nil => exact nil
  | cons c rest ih =>
    rw [List.all_cons, Bool.and_eq_true] at each
    exact (char each.1).append (ih each.2)

/-- What stands in quotes is not deep, whatever it is. -/
theorem encode (text : List Char) : Nests (Quoted.encode text) 0 := by
  have inside (text : List Char) (depth : Nat) (rest : List Char) :
      deepest true depth (Quoted.double text ++ '\'' :: rest) = deepest false depth rest := by
    induction text with
    | nil => simp [Quoted.double, deepest]
    | cons c others ih =>
      by_cases isQuote : c = '\''
      · simpa [Quoted.double, isQuote, deepest] using ih
      · simpa [Quoted.double, isQuote, deepest, bne_iff_ne.2 isQuote] using ih
  intro depth rest
  have steps : deepest false depth (Quoted.encode text ++ rest) = deepest false depth rest := by
    have opens : deepest false depth (Quoted.encode text ++ rest) =
        deepest true depth (Quoted.double text ++ '\'' :: rest) := by
      simp [Quoted.encode, deepest]
    rw [opens, inside]
  rw [steps]
  exact (Nat.max_eq_right (le_deepest false depth rest)).symm

/-- Pieces with a flat separator between them. -/
theorem intercalate {separator : List Char} (flat : Nests separator 0)
    {pieces : List (List Char)} {heights : List Nat} (each : List.Forall₂ Nests pieces heights) :
    Nests (separator.intercalate pieces) (heights.foldr max 0) := by
  induction each with
  | nil => exact nil
  | @cons piece height pieces heights first others ih =>
    cases others with
    | nil => simpa [List.intercalate] using first
    | cons second others =>
      rw [List.intercalate_cons_cons, List.foldr_cons]
      simpa using (first.append flat).append ih

/-- The nesting of a whole text. -/
theorem nesting_eq {text : String} (nests : Nests text.toList height) : nesting text = height := by
  have whole := nests 0 []
  rw [List.append_nil] at whole
  simpa [nesting, deepest] using whole

end Nests

end EventQuery.Text
