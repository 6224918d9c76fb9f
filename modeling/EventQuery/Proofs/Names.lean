import EventQuery.Proofs.Production
import EventQuery.Proofs.Scanning
import EventQuery.Reading.ExpressionReader

/-!
Words, and names that are words with points between them: their tokens, and how they are
scanned and read. Any name that is written in words reads back, keywords included; what a
keyword may not do is start an expression.
-/
namespace EventQuery.Reading

/-! ### Words and names -/

/-- A text that is one word. -/
def IsWord (text : String) : Prop :=
  match text.toList with
  | [] => False
  | first :: rest => isWordStart first = true ∧ rest.all isWordPart = true

instance (text : String) : Decidable (IsWord text) := by
  unfold IsWord
  split <;> infer_instance

/-- Words with points between them. -/
def IsName (name : String) : Prop :=
  ∃ words, words ≠ [] ∧ (∀ word ∈ words, IsWord word) ∧ name = ".".intercalate words

/-- The parts of a name between its points. -/
def nameWords (name : String) : List String := (name.toList.splitOn '.').map String.ofList

/-- The tokens of a name. -/
def nameTokens (name : String) : List Token :=
  [.dot].intercalate ((nameWords name).map fun word => [.word word])

theorem intercalate_nameWords (name : String) : ".".intercalate (nameWords name) = name := by
  apply String.toList_injective
  have whole : ['.'].intercalate (name.toList.splitOn '.') = name.toList :=
    List.intercalate_splitOn '.'
  rw [String.toList_intercalate, nameWords, List.map_map]
  simp [Function.comp_def, whole]

theorem nameWords_ne_nil (name : String) : nameWords name ≠ [] := by
  simp [nameWords, List.splitOn_ne_nil]

theorem isWordPart_of_start {c : Char} (starts : isWordStart c = true) : isWordPart c = true := by
  simp [isWordPart, starts]

theorem IsWord.exists_cons {text : String} (word : IsWord text) :
    ∃ first rest, text.toList = first :: rest ∧ isWordStart first = true ∧
      rest.all isWordPart = true := by
  unfold IsWord at word
  split at word
  · exact word.elim
  · exact ⟨_, _, ‹_›, word⟩

theorem IsWord.all {text : String} (word : IsWord text) : text.toList.all isWordPart = true := by
  obtain ⟨first, rest, shape, starts, parts⟩ := word.exists_cons
  rw [shape, List.all_cons, parts, isWordPart_of_start starts, Bool.and_self]

theorem IsWord.dotless {text : String} (word : IsWord text) : '.' ∉ text.toList := fun found =>
  absurd (List.all_eq_true.1 word.all '.' found) (by decide)

theorem nameWords_intercalate {words : List String} (nonempty : words ≠ [])
    (dotless : ∀ word ∈ words, '.' ∉ word.toList) : nameWords (".".intercalate words) = words := by
  have split :=
    List.splitOn_intercalate '.' (List.forall_mem_map.2 dotless) (by simpa using nonempty)
  rw [nameWords, String.toList_intercalate]
  simpa [Function.comp_def] using congrArg (List.map String.ofList) split

/-- A text without a point is its only part. -/
theorem nameWords_single {word : String} (dotless : '.' ∉ word.toList) :
    nameWords word = [word] := by
  have single :=
    nameWords_intercalate (List.cons_ne_nil word []) (List.forall_mem_singleton.2 dotless)
  rwa [String.intercalate_singleton] at single

theorem nameWords_append {name rest : String} :
    nameWords (name ++ "." ++ rest) = nameWords name ++ nameWords rest := by
  have chars : (name ++ "." ++ rest).toList = name.toList ++ '.' :: rest.toList := by simp
  rw [nameWords, chars, List.splitOn_append_cons_self, List.map_append]
  rfl

/-- A name is one word, or a word with a point and a name behind it. -/
theorem dotless_or_eq_append (name : String) :
    '.' ∉ name.toList ∨ ∃ head rest, '.' ∉ head.toList ∧ name = head ++ "." ++ rest := by
  by_cases pointed : '.' ∈ name.toList
  · obtain ⟨before, behind, split, dotless⟩ := List.eq_append_cons_of_mem pointed
    refine .inr ⟨String.ofList before, String.ofList behind, by simpa using dotless, ?_⟩
    apply String.toList_injective
    simp [split]
  · exact .inl pointed

theorem IsName.isWord_of_mem {name word : String} (named : IsName name)
    (member : word ∈ nameWords name) : IsWord word := by
  obtain ⟨words, nonempty, each, rfl⟩ := named
  have split := nameWords_intercalate nonempty fun word listed => (each word listed).dotless
  exact each word (split ▸ member)

/-! ### Scanning -/

/-- What may follow a word. -/
def NoWordPart (rest : List Char) : Prop := ∀ c ∈ rest.head?, isWordPart c = false

theorem isSpace_of_isWordStart {c : Char} (starts : isWordStart c = true) : isSpace c = false := by
  rw [Bool.eq_false_iff]
  intro blank
  simp only [isSpace, Bool.or_eq_true, beq_iff_eq] at blank
  rcases blank with ((rfl | rfl) | rfl) | rfl <;> exact absurd starts (by decide)

theorem lexeme_wordStart {c : Char} {rest : List Char} (starts : isWordStart c = true) :
    lexeme c rest = .token (.word (String.ofList (c :: rest.takeWhile isWordPart)))
      (rest.takeWhile isWordPart).length := by
  unfold lexeme
  split <;> first | exact absurd starts (by decide) | rw [if_pos starts]

theorem lexes_word {text : String} (word : IsWord text) :
    Lexes lexeme NoWordPart text.toList [.word text] := by
  obtain ⟨first, rest, shape, starts, parts⟩ := word.exists_cons
  have whole : text = String.ofList (first :: rest) := by rw [← shape, String.ofList_toList]
  rw [shape, whole]
  refine .token (isSpace_of_isWordStart starts) fun more stops => ?_
  rw [lexeme_wordStart starts, takeWhile_append parts stops]

/-- A character that is a token of its own wherever it stands. -/
theorem lexes_char {c : Char} {token : Token} (visible : isSpace c = false)
    (taken : ∀ rest, lexeme c rest = .token token 0) : Lexes lexeme anywhere [c] [token] :=
  .token visible fun rest _ => taken rest

theorem lexes_name {name : String} (named : IsName name) :
    Lexes lexeme NoWordPart name.toList (nameTokens name) := by
  have dot : Lexes lexeme anywhere ['.'] [.dot] := lexes_char (by decide) fun _ => rfl
  have each : List.Forall₂ (Lexes lexeme NoWordPart) ((nameWords name).map String.toList)
      ((nameWords name).map fun word => [.word word]) := by
    rw [List.forall₂_map_left_iff, List.forall₂_map_right_iff, List.forall₂_same]
    exact fun word member => lexes_word (named.isWord_of_mem member)
  have whole := Lexes.intercalate dot (fun rest c found => by cases found; decide) each
  have shape : name.toList = ['.'].intercalate ((nameWords name).map String.toList) := by
    have joined := congrArg String.toList (intercalate_nameWords name)
    rw [String.toList_intercalate] at joined
    exact joined.symm
  rw [shape]
  exact whole

/-! ### Reading -/

namespace ExpressionReader

variable {rest : List Token}

theorem reads_name {word : String} : Reads name (.word word :: rest) rest (· = word) :=
  .peek (.advance (.pure rfl))

theorem reads_dottedNameRest {words : List String} {read : String}
    (ends : rest.head? ≠ some .dot) {rounds : Nat} (enough : words.length ≤ rounds) :
    Reads (dottedNameRest rounds read) (words.flatMap (fun word => [.dot, .word word]) ++ rest) rest
      (· = ".".intercalate (read :: words)) := by
  induction words generalizing read rounds with
  | nil =>
    rw [String.intercalate_singleton]
    cases rounds with
    | zero => exact .pure rfl
    | succ rounds => exact .skip_other ends (.pure rfl)
  | cons word words ih =>
    obtain ⟨rounds, rfl⟩ := Nat.exists_eq_add_of_le' (Nat.one_le_of_lt enough)
    refine .skip (.bind reads_name ?_)
    rintro _ rfl
    refine (ih (Nat.le_of_succ_le_succ enough)).mono fun value same => ?_
    rw [same, String.intercalate_cons_append, String.intercalate_cons_cons]

theorem reads_dottedName {name : String} (ends : rest.head? ≠ some .dot) :
    Reads dottedName (nameTokens name ++ rest) rest (· = name) := by
  obtain ⟨first, words, shape⟩ := List.exists_cons_of_ne_nil (nameWords_ne_nil name)
  rw [nameTokens, shape, intercalate_map_cons, List.append_assoc]
  refine .bind reads_name ?_
  rintro _ rfl
  have enough := length_le_flatMap Token.dot (fun word : String => [Token.word word]) words
  refine .remaining ((reads_dottedNameRest ends ?_).mono fun value same => ?_)
  · exact Nat.le_trans enough (by simp)
  · rw [same, ← shape, intercalate_nameWords]

end ExpressionReader

end EventQuery.Reading
