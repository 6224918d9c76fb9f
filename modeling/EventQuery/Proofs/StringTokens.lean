import EventQuery.Proofs.Literals
import EventQuery.Proofs.Passages
import Mathlib.Computability.Language
import Mathlib.Order.Lattice.Nat

/-!
Quoted texts as tokens. The pattern of a string token, a quote in front and behind and no quote
between them but in pairs, matches the quoted texts and nothing else, and the scanner takes the
longest piece of text that it matches. So a quoted text is a single token, whatever it contains
and whatever stands behind it but a quote, and reading the token gives the text back.
-/
namespace EventQuery.Reading

open Text.Quoted
open scoped Computability

variable {rest : List Char}

/-! ### The pattern -/

def quoteMark : Language Char := {['\'']}

def doubledMark : Language Char := {['\'', '\'']}

/-- A character that is no quote. -/
def plainPiece : Language Char := {piece | ∃ c, c ≠ '\'' ∧ piece = [c]}

/-- The pieces of text that are string tokens: `'([^']|'')*'`. -/
def stringPattern : Language Char := quoteMark * (plainPiece + doubledMark)∗ * quoteMark

theorem mem_inside {inner : List Char} :
    inner ∈ (plainPiece + doubledMark)∗ ↔ ∃ text, inner = double text := by
  rw [Language.mem_kstar]
  constructor
  · rintro ⟨pieces, rfl, each⟩
    induction pieces with
    | nil => exact ⟨[], rfl⟩
    | cons piece pieces ih =>
      obtain ⟨first, others⟩ := List.forall_mem_cons.1 each
      obtain ⟨text, same⟩ := ih others
      rw [List.flatten_cons, same]
      rcases (Language.mem_add _ _ _).1 first with ⟨c, plain, rfl⟩ | mark
      · exact ⟨c :: text, by rw [double, if_neg plain, List.singleton_append]⟩
      · obtain rfl : piece = ['\'', '\''] := mark
        exact ⟨'\'' :: text, by rw [double, if_pos rfl, List.cons_append, List.singleton_append]⟩
  · rintro ⟨text, rfl⟩
    refine ⟨text.map fun c => if c = '\'' then ['\'', '\''] else [c], ?_, ?_⟩
    · induction text with
      | nil => rfl
      | cons c text ih =>
        rw [List.map_cons, List.flatten_cons, ← ih, double]
        split_ifs <;> rfl
    · intro piece listed
      obtain ⟨c, -, rfl⟩ := List.mem_map.1 listed
      refine (Language.mem_add _ _ _).2 ?_
      split_ifs with isQuote
      · exact .inr rfl
      · exact .inl ⟨c, isQuote, rfl⟩

/-- String tokens are the quoted texts. -/
theorem mem_stringPattern {piece : List Char} :
    piece ∈ stringPattern ↔ ∃ text, piece = encode text := by
  rw [stringPattern, Language.mem_mul]
  constructor
  · rintro ⟨front, frontHas, mark, rfl, rfl⟩
    obtain ⟨mark, rfl, inner, isInner, rfl⟩ := Language.mem_mul.1 frontHas
    obtain ⟨text, rfl⟩ := mem_inside.1 isInner
    exact ⟨text, rfl⟩
  · rintro ⟨text, rfl⟩
    refine ⟨'\'' :: double text, ?_, ['\''], rfl, rfl⟩
    exact Language.mem_mul.2 ⟨['\''], rfl, double text, mem_inside.2 ⟨text, rfl⟩, rfl⟩

/-! ### The longest token -/

/-- Behind its opening quote, a string token takes up this many characters of the text. -/
def Closes (rest : List Char) (length : Nat) : Prop :=
  length ≤ rest.length ∧ '\'' :: rest.take length ∈ stringPattern

theorem closes_iff {length : Nat} : Closes rest length ↔
    ∃ text after, rest = double text ++ '\'' :: after ∧ length = (double text).length + 1 := by
  rw [Closes, mem_stringPattern]
  constructor
  · rintro ⟨within, text, same⟩
    have inner : rest.take length = double text ++ ['\''] := (List.cons.inj same).2
    refine ⟨text, rest.drop length, ?_, ?_⟩
    · rw [← List.singleton_append, ← List.append_assoc, ← inner, List.take_append_drop]
    · have count := congrArg List.length inner
      rw [List.length_take_of_le within] at count
      simpa using count
  · rintro ⟨text, after, rfl, rfl⟩
    refine ⟨by simp, text, ?_⟩
    have split : double text ++ '\'' :: after = double text ++ ['\''] ++ after := by simp
    have count : (double text).length + 1 = (double text ++ ['\'']).length := by simp
    rw [split, count, List.take_left, encode]

theorem not_closes_nil {length : Nat} : ¬ Closes [] length := by
  rw [closes_iff]
  rintro ⟨text, after, same, -⟩
  exact absurd same.symm (List.append_ne_nil_of_right_ne_nil _ (List.cons_ne_nil _ _))

theorem closes_plain {c : Char} (plain : c ≠ '\'') {length : Nat} :
    Closes (c :: rest) length ↔ ∃ shorter, length = shorter + 1 ∧ Closes rest shorter := by
  simp only [closes_iff]
  constructor
  · rintro ⟨text, after, same, rfl⟩
    cases text with
    | nil => exact absurd (List.cons.inj same).1 plain
    | cons d text =>
      rw [double] at same ⊢
      split_ifs at same ⊢ with isQuote
      · exact absurd (List.cons.inj same).1 plain
      · exact ⟨_, rfl, text, after, (List.cons.inj same).2, rfl⟩
  · rintro ⟨_, rfl, text, after, rfl, rfl⟩
    exact ⟨c :: text, after, by rw [double, if_neg plain, List.cons_append],
      by rw [double, if_neg plain, List.length_cons]⟩

theorem closes_doubled {length : Nat} : Closes ('\'' :: '\'' :: rest) length ↔
    length = 1 ∨ ∃ shorter, length = shorter + 2 ∧ Closes rest shorter := by
  simp only [closes_iff]
  constructor
  · rintro ⟨text, after, same, rfl⟩
    cases text with
    | nil => exact .inl rfl
    | cons c text =>
      rw [double] at same ⊢
      split_ifs at same ⊢ with isQuote
      · have inner := (List.cons.inj (List.cons.inj same).2).2
        exact .inr ⟨_, rfl, text, after, inner, rfl⟩
      · exact absurd (List.cons.inj same).1.symm isQuote
  · rintro (rfl | ⟨_, rfl, text, after, rfl, rfl⟩)
    · exact ⟨[], '\'' :: rest, rfl, rfl⟩
    · exact ⟨'\'' :: text, after, by rw [double, if_pos rfl, List.cons_append, List.cons_append],
        by rw [double, if_pos rfl, List.length_cons, List.length_cons]⟩

theorem closes_single (ends : ∀ after, rest ≠ '\'' :: after) {length : Nat} :
    Closes ('\'' :: rest) length ↔ length = 1 := by
  rw [closes_iff]
  constructor
  · rintro ⟨text, after, same, rfl⟩
    cases text with
    | nil => rfl
    | cons c text =>
      rw [double] at same
      split_ifs at same with isQuote
      · exact absurd (List.cons.inj same).2 (ends _)
      · exact absurd (List.cons.inj same).1.symm isQuote
  · rintro rfl
    exact ⟨[], rest, rfl, rfl⟩

/-- The greatest length of a string token, or else what was known before. -/
theorem stringLength_spec (count : Nat) (close : Option Nat) (rest : List Char) :
    (∀ length, IsGreatest {length | Closes rest length} length →
      stringLength count close rest = some (count + length)) ∧
    ((∀ length, ¬ Closes rest length) → stringLength count close rest = close) := by
  fun_induction stringLength count close rest with
  | case1 count close => exact ⟨fun _ greatest => absurd greatest.1 not_closes_nil, fun _ => rfl⟩
  | case2 count close rest ih =>
    refine ⟨fun length greatest => ?_, fun never => absurd (closes_doubled.2 (.inl rfl)) (never 1)⟩
    rcases closes_doubled.1 greatest.1 with rfl | ⟨shorter, rfl, closes⟩
    · refine ih.2 fun longer closes => ?_
      have bound := greatest.2 (closes_doubled.2 (.inr ⟨longer, rfl, closes⟩))
      omega
    · rw [ih.1 shorter ⟨closes, fun other closes => ?_⟩, Nat.add_assoc, Nat.add_comm 2]
      have bound := greatest.2 (closes_doubled.2 (.inr ⟨other, rfl, closes⟩))
      omega
  | case3 count close rest ends =>
    have single {length : Nat} : Closes ('\'' :: rest) length ↔ length = 1 :=
      closes_single fun after same => ends after same
    refine ⟨fun length greatest => ?_, fun never => absurd (single.2 rfl) (never 1)⟩
    rw [single.1 greatest.1]
  | case4 count close c rest _ plain ih =>
    have other : c ≠ '\'' := plain
    refine ⟨fun length greatest => ?_, fun never => ih.2 fun length closes => ?_⟩
    · obtain ⟨shorter, rfl, closes⟩ := (closes_plain other).1 greatest.1
      rw [ih.1 shorter ⟨closes, fun longer closes => ?_⟩, Nat.add_assoc, Nat.add_comm 1]
      have bound := greatest.2 ((closes_plain other).2 ⟨longer, rfl, closes⟩)
      omega
    · exact never _ ((closes_plain other).2 ⟨length, rfl, closes⟩)

theorem exists_greatest {length : Nat} (closes : Closes rest length) :
    ∃ greatest, IsGreatest {length | Closes rest length} greatest := by
  have bounded : BddAbove {length | Closes rest length} := ⟨rest.length, fun _ closes => closes.1⟩
  exact ⟨_, Nat.sSup_mem ⟨length, closes⟩ bounded, fun _ closes => le_csSup bounded closes⟩

/-- At a quote stands the longest string token of the text, and a bad piece if there is none. -/
theorem lexeme_string_iff (rest : List Char) (length : Nat) :
    lexeme '\'' rest = .token (.string (String.ofList ('\'' :: rest.take length))) length ↔
      IsGreatest {length | Closes rest length} length := by
  have spec := stringLength_spec 0 none rest
  have eval : lexeme '\'' rest = stringLexeme rest := rfl
  rw [eval, stringLexeme]
  constructor
  · intro taken
    by_cases closed : ∃ length, Closes rest length
    · obtain ⟨greatest, isGreatest⟩ := exists_greatest closed.choose_spec
      rw [spec.1 greatest isGreatest, Nat.zero_add] at taken
      obtain rfl : greatest = length := (Lexeme.token.inj taken).2
      exact isGreatest
    · rw [spec.2 fun length closes => closed ⟨length, closes⟩] at taken
      cases taken
  · intro greatest
    rw [spec.1 length greatest, Nat.zero_add]

/-! ### Quoted texts -/

/-- The tokens of a text that stands behind that many bytes of another one. -/
def tokensBehind (offset : Nat) (text : String) : Except ReadError (List (Placed Token)) :=
  scanFrom lexeme (fun piece => "unexpected character " ++ Text.Printable.quoted piece) offset
    text.toList

theorem tokenize_eq (text : String) : tokenize text = tokensBehind 0 text := rfl

theorem tokenize_quote_append (text rest : String) (apart : rest.toList.head? ≠ some '\'') :
    tokenize (quote text ++ rest) =
      (⟨.string (quote text), ⟨0, (quote text).utf8ByteSize⟩⟩ :: ·) <$>
        tokensBehind (quote text).utf8ByteSize rest := by
  have inner : (quote text).toList = '\'' :: (double text.toList ++ ['\'']) := toList_quote text
  have whole : (quote text ++ rest).toList =
      '\'' :: (double text.toList ++ ['\''] ++ rest.toList) := by
    rw [String.toList_append, inner, List.cons_append]
  have ends : ∀ c ∈ rest.toList.head?, c ≠ '\'' := fun c found same =>
    apart (same ▸ Option.mem_def.1 found)
  have taken := lexeme_quote text ends
  have stop : byteLength ('\'' :: (double text.toList ++ ['\''])) = (quote text).utf8ByteSize := by
    rw [← inner, byteLength_toList]
  rw [tokenize_eq, tokensBehind, whole, scanFrom, if_neg (by decide), taken]
  simp only [List.take_left, List.drop_left, stop, Nat.zero_add, tokensBehind]
  rfl

/-- A quoted text is one token over the whole of it, in front of every text that does not go on
with a quote, and reading the token gives the text back. A string token is always the longest
piece of text that the pattern matches. -/
theorem tokenize_quote (text : String) :
    tokenize (quote text) = .ok [⟨.string (quote text), ⟨0, (quote text).utf8ByteSize⟩⟩] ∧
    unquote (quote text) = text ∧
    (∀ rest : String, rest.toList.head? ≠ some '\'' →
      tokenize (quote text ++ rest) =
        (⟨.string (quote text), ⟨0, (quote text).utf8ByteSize⟩⟩ :: ·) <$>
          tokensBehind (quote text).utf8ByteSize rest) ∧
    ∀ (rest : List Char) (length : Nat),
      lexeme '\'' rest = .token (.string (String.ofList ('\'' :: rest.take length))) length ↔
        IsGreatest {length | length ≤ rest.length ∧ '\'' :: rest.take length ∈ stringPattern} length := by
  refine ⟨?_, unquote_quote text, tokenize_quote_append text, lexeme_string_iff⟩
  have alone := tokenize_quote_append text "" (by simp)
  rw [String.append_empty, tokensBehind, String.toList_empty, scanFrom] at alone
  exact alone

/-- Quotes at both ends of the text, two in a row inside it, and a line break. -/
theorem tokenize_quote_marks : " == 1".toList.head? ≠ some '\'' ∧
    tokenize ("'''it''''s''\n'" ++ " == 1") =
      .ok [⟨.string "'''it''''s''\n'", ⟨0, 14⟩⟩, ⟨.equal, ⟨15, 17⟩⟩, ⟨.integer "1", ⟨18, 19⟩⟩] := by
  have apart : " == 1".toList.head? ≠ some '\'' := by decide
  have quoted : quote "'it''s'\n" = "'''it''''s''\n'" := by decide
  have size : "'''it''''s''\n'".utf8ByteSize = 14 := by decide
  have others : tokensBehind 14 " == 1" = .ok [⟨.equal, ⟨15, 17⟩⟩, ⟨.integer "1", ⟨18, 19⟩⟩] := by
    decide +kernel
  have tokens := (tokenize_quote "'it''s'\n").2.2.1 " == 1" apart
  rw [quoted, size, others] at tokens
  exact ⟨apart, tokens⟩

end EventQuery.Reading
