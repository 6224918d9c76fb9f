import EventQuery.Proofs.Outcome
import EventQuery.Number.Reader
import EventQuery.Reading.Cursor

/-!
What the scanner makes of a text that is put together from pieces. A piece lexes to its
tokens in front of every rest that cannot extend its last one, so that the tokens of a
whole text are those of its pieces in turn.
-/
namespace EventQuery.Reading

variable {τ : Type} {lexeme : Char → List Char → Lexeme τ} {F G : List Char → Prop}
  {piece piece' : List Char} {tokens tokens' : List τ}

/-- In front of a rest that `follow` allows, the scanner takes the piece for these tokens. -/
def Lexes (lexeme : Char → List Char → Lexeme τ) (follow : List Char → Prop) (piece : List Char)
    (tokens : List τ) : Prop :=
  ∀ rest, follow rest → ∀ complaint offset, ∃ placed offset', placed.map Placed.token = tokens ∧
    scanFrom lexeme complaint offset (piece ++ rest) =
      (placed ++ ·) <$> scanFrom lexeme complaint offset' rest

/-- Nothing is asked of the rest. -/
abbrev anywhere : List Char → Prop := fun _ => True

namespace Lexes

theorem nil : Lexes lexeme F [] [] := by
  intro rest _ complaint offset
  refine ⟨[], offset, rfl, ?_⟩
  rw [List.nil_append]
  cases scanFrom lexeme complaint offset rest <;> rfl

theorem space {c : Char} (blank : isSpace c = true) : Lexes lexeme F [c] [] := by
  intro rest _ complaint offset
  refine ⟨[], offset + c.utf8Size, rfl, ?_⟩
  rw [List.singleton_append, scanFrom, if_pos blank]
  cases scanFrom lexeme complaint (offset + c.utf8Size) rest <;> rfl

theorem token {c : Char} {token : τ} (visible : isSpace c = false)
    (taken : ∀ rest, F rest → lexeme c (piece ++ rest) = .token token piece.length) :
    Lexes lexeme F (c :: piece) [token] := by
  intro rest allowed complaint offset
  let stop := offset + byteLength (c :: piece)
  refine ⟨[⟨token, ⟨offset, stop⟩⟩], stop, rfl, ?_⟩
  rw [List.cons_append, scanFrom, if_neg (by simp [visible]), taken rest allowed]
  simp only [List.drop_left, List.take_left]
  cases scanFrom lexeme complaint stop rest <;> rfl

theorem append (first : Lexes lexeme F piece tokens)
    (second : Lexes lexeme G piece' tokens')
    (meets : ∀ rest, G rest → F (piece' ++ rest)) :
    Lexes lexeme G (piece ++ piece') (tokens ++ tokens') := by
  intro rest allowed complaint offset
  obtain ⟨placed, middle, rfl, scans⟩ := first (piece' ++ rest) (meets rest allowed) complaint offset
  obtain ⟨placed', offset', rfl, scans'⟩ := second rest allowed complaint middle
  refine ⟨placed ++ placed', offset', List.map_append, ?_⟩
  rw [List.append_assoc, scans, scans']
  cases scanFrom lexeme complaint offset' rest with
  | error cause => rfl
  | ok others => exact congrArg Except.ok (List.append_assoc ..).symm

theorem imp (lexes : Lexes lexeme F piece tokens) (weaker : ∀ rest, G rest → F rest) :
    Lexes lexeme G piece tokens := fun rest allowed => lexes rest (weaker rest allowed)

/-- Pieces with a separator between them. -/
theorem intercalate {separator : List Char} {between : List τ}
    (separates : Lexes lexeme anywhere separator between)
    (meets : ∀ rest, F (separator ++ rest)) {pieces : List (List Char)}
    {tokens : List (List τ)} (each : List.Forall₂ (Lexes lexeme F) pieces tokens) :
    Lexes lexeme F (separator.intercalate pieces) (between.intercalate tokens) := by
  induction each with
  | nil => exact nil
  | @cons piece token pieces tokens first others ih =>
    cases others with
    | nil => simpa [List.intercalate] using first
    | cons second others =>
      rw [List.intercalate_cons_cons, List.intercalate_cons_cons]
      exact (first.append separates fun rest _ => meets rest).append ih fun _ _ => trivial

/-- The tokens of a whole text. -/
theorem scan {text : String} (lexes : Lexes lexeme F text.toList tokens) (stops : F [])
    (complaint : String → String) :
    ∃ placed, scan lexeme complaint text = .ok placed ∧ placed.map Placed.token = tokens := by
  obtain ⟨placed, offset', same, scans⟩ := lexes [] stops complaint 0
  refine ⟨placed, ?_, same⟩
  rw [Reading.scan, ← List.append_nil text.toList, scans, scanFrom]
  exact congrArg Except.ok (List.append_nil placed)

end Lexes

/-! ### Pieces -/

theorem intercalate_map_cons {α β : Type} (separator : β) (write : α → List β) (first : α)
    (others : List α) :
    [separator].intercalate ((first :: others).map write) =
      write first ++ others.flatMap fun item => separator :: write item := by
  induction others generalizing first with
  | nil => simp
  | cons second others ih =>
    rw [List.map_cons, List.map_cons, List.intercalate_cons_cons, ← List.map_cons, ih]
    simp

theorem length_le_flatMap {α β : Type} (separator : β) (write : α → List β) (items : List α) :
    items.length ≤ (items.flatMap fun item => separator :: write item).length := by
  induction items with
  | nil => exact Nat.le_refl _
  | cons item items ih =>
    simp only [List.flatMap_cons, List.cons_append, List.length_cons, List.length_append]
    omega

/-! ### Runs of characters -/

/-- The parts of an interpolated text are texts already. -/
theorem toString_text (text : String) : toString text = text := rfl

theorem toList_pushn (c : Char) (n : Nat) : ("".pushn c n).toList = List.replicate n c := by
  rw [String.pushn_eq_repeat_push]
  induction n with
  | zero => rfl
  | succ n ih => rw [Nat.repeat, String.toList_push, ih, List.replicate_succ']

/-- A run ends where a character follows that does not belong to it. -/
theorem takeWhile_append {p : Char → Bool} {run rest : List Char} (inside : run.all p = true)
    (stops : ∀ c ∈ rest.head?, p c = false) : (run ++ rest).takeWhile p = run := by
  rw [List.takeWhile_append_of_pos (List.all_eq_true.1 inside)]
  cases rest with
  | nil => exact List.append_nil run
  | cons c rest => rw [List.takeWhile_cons_of_neg (by simp [stops c rfl]), List.append_nil]

theorem dropWhile_append {p : Char → Bool} {run rest : List Char} (inside : run.all p = true)
    (stops : ∀ c ∈ rest.head?, p c = false) : (run ++ rest).dropWhile p = rest := by
  rw [List.dropWhile_append_of_pos (List.all_eq_true.1 inside)]
  cases rest with
  | nil => rfl
  | cons c rest => rw [List.dropWhile_cons_of_neg (by simp [stops c rfl])]

theorem isSpace_of_isDigit {c : Char} (digit : Number.Reader.isDigit c = true) :
    isSpace c = false := by
  rw [Bool.eq_false_iff]
  intro blank
  simp only [isSpace, Bool.or_eq_true, beq_iff_eq] at blank
  rcases blank with ((rfl | rfl) | rfl) | rfl <;> exact absurd digit (by decide)

/-! ### Every token -/

/-- What holds of every token that stands at some place holds of all tokens of a text. -/
theorem forall_of_scanFrom {P : τ → Prop}
    (each : ∀ c rest token more, lexeme c rest = .token token more → P token)
    {complaint : String → String} {offset : Nat} {chars : List Char} {placed : List (Placed τ)}
    (scans : scanFrom lexeme complaint offset chars = .ok placed) :
    ∀ found ∈ placed, P found.token := by
  fun_induction scanFrom lexeme complaint offset chars generalizing placed with
  | case1 =>
    cases scans
    exact List.forall_mem_nil _
  | case2 offset c rest blank ih => exact ih scans
  | case3 offset c rest visible token more taken stop =>
    rename_i ih
    obtain ⟨others, scans', same⟩ := Outcome.bind_eq_ok.1 scans
    obtain rfl := Outcome.pure_eq_ok.1 same
    exact List.forall_mem_cons.2 ⟨each c rest token more taken, ih scans'⟩
  | case4 => cases scans

end EventQuery.Reading
