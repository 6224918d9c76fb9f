import EventQuery.Proofs.CanonicalText

/-!
Expressions in writing, with parentheses only where they are needed: around an operand that
binds more loosely than what is read at its place. A chain of operators of one level is grouped
to the left, so on the right of an operator stands what binds more tightly.
-/
namespace EventQuery

open Reading Reading.ExpressionReader

/-! ### Writing -/

/-- An expression in writing: the level of the grammar its operator belongs to, the text with its
tokens, and how many levels reading it goes down. -/
structure Writing where
  level : Level
  text : String
  tokens : List Token
  depth : Nat

namespace Writing

def enclosed (writing : Writing) : Writing where
  level := .primary
  text := "(" ++ writing.text ++ ")"
  tokens := groupTokens writing.tokens
  depth := writing.depth + 1

/-- The writing at a place where things of the level are read. -/
def inside (writing : Writing) (position : Level) : Writing :=
  if position.rank ≤ writing.level.rank then writing else writing.enclosed

/-- Two writings with an operator between them. -/
def joined (level : Level) (symbol : String) (operator : List Token)
    (left right : Writing) : Writing where
  level
  text := left.text ++ " " ++ symbol ++ " " ++ right.text
  tokens := left.tokens ++ (operator ++ right.tokens)
  depth := max left.depth right.depth

/-- Writings between commas, in parentheses. -/
def listed (items : List Writing) : Writing where
  level := .primary
  text := "(" ++ commaSeparated (items.map text) ++ ")"
  tokens := groupTokens ([.comma].intercalate (items.map tokens))
  depth := (items.map fun item => item.depth + 1).foldr max 0

end Writing

open Writing (joined listed)

mutual

/-- The predicate in writing; what is no operator is written as always. -/
def BoolExpr.writing : BoolExpr → Writing
  | .binary _ op left right =>
    joined op.level op.keyword [.word op.keyword] (left.writing.inside op.level)
      (right.writing.inside op.level.tighter)
  | .not _ operand =>
    let operand := operand.writing.inside .negation
    ⟨.negation, "NOT " ++ operand.text, .word "NOT" :: operand.tokens, operand.depth + 1⟩
  | .comparison _ op left right =>
    joined .comparison op.symbol [op.token] (left.writing.inside .sum) (right.writing.inside .sum)
  | .bounds _ op value lower upper =>
    joined .comparison op.keyword op.tokens (value.writing.inside .sum)
      (joined .comparison "AND" [.word "AND"] (lower.writing.inside .sum) (upper.writing.inside .sum))
  | .nullTest _ op operand =>
    let operand := operand.writing.inside .sum
    ⟨.comparison, operand.text ++ " " ++ op.keyword, operand.tokens ++ op.tokens, operand.depth⟩
  | .inList _ value candidates =>
    joined .comparison "IN" [.word "IN"] (value.writing.inside .sum)
      (listed (ValueExpr.writings candidates))
  | .wrapper _ value => value.writing
  | node => ⟨.primary, node.text, node.tokens, node.levels⟩

/-- The value in writing; what is no operator is written as always. -/
def ValueExpr.writing : ValueExpr → Writing
  | .binary _ op left right =>
    joined op.level op.symbol [op.token] (left.writing.inside op.level)
      (right.writing.inside op.level.tighter)
  | .unary _ sign operand =>
    let operand := operand.writing.inside .signed
    ⟨.signed, sign.symbol ++ operand.text, sign.token :: operand.tokens, operand.depth + 1⟩
  | node => ⟨.primary, node.text, node.tokens, node.levels⟩

def ValueExpr.writings : List ValueExpr → List Writing
  | [] => []
  | node :: rest => node.writing :: ValueExpr.writings rest

end

def Expr.writing : Expr → Writing
  | .bool node => node.writing
  | .value node => node.writing

theorem ValueExpr.writings_eq_map (nodes : List ValueExpr) :
    writings nodes = nodes.map writing := by
  induction nodes with
  | nil => rfl
  | cons node rest ih => rw [writings, ih, List.map_cons]

/-! ### Formulas -/

/-- Operators over names, parameters, strings and natural numbers. A minus in front of a number
would be part of the number. -/
inductive Expr.Formula : Expr → Prop where
  | connective {span op left right} (first : Formula (.bool left)) (second : Formula (.bool right)) :
    Formula (.bool (.binary span op left right))
  | not {span operand} (only : Formula (.bool operand)) : Formula (.bool (.not span operand))
  | comparison {span op left right} (first : Formula (.value left))
    (second : Formula (.value right)) : Formula (.bool (.comparison span op left right))
  | bounds {span op value lower upper} (first : Formula (.value value))
    (second : Formula (.value lower)) (third : Formula (.value upper)) :
    Formula (.bool (.bounds span op value lower upper))
  | nullTest {span op operand} (only : Formula (.value operand)) :
    Formula (.bool (.nullTest span op operand))
  | inList {span value candidates} (first : Formula (.value value))
    (others : ∀ candidate ∈ candidates, Formula (.value candidate)) :
    Formula (.bool (.inList span value candidates))
  | wrapper {span value} (only : Formula (.value value)) : Formula (.bool (.wrapper span value))
  | path {span name resolved} (named : IsName name) (starts : Starts name) :
    Formula (.value (.path span name resolved))
  | parameter {span name type} (word : IsWord name) : Formula (.value (.parameter span name type))
  | string {span text} : Formula (.value (.constant span (.string text)))
  | natural {span} {word : Int64} (natural : 0 ≤ word.toInt) :
    Formula (.value (.constant span (.ofInteger word)))
  | arithmetic {span op left right} (first : Formula (.value left)) (second : Formula (.value right)) :
    Formula (.value (.binary span op left right))
  | unary {span sign operand} (only : Formula (.value operand))
    (apart : sign = .minus → ∀ place word, operand ≠ .constant place (.ofInteger word)) :
    Formula (.value (.unary span sign operand))

/-- What is read of the expression has to be this. -/
def Expr.Recovered (expr x : Expr) : Prop :=
  match expr with
  | .bool node => (asPredicate x).bare = node.bare
  | .value node => x.bare = .value node.bare

/-! ### Tokens -/

namespace Writing

/-- The text has the tokens. -/
def Scans (writing : Writing) : Prop := Lexes lexeme Apart writing.text.toList writing.tokens

variable {writing left right : Writing}

theorem Scans.inside (scans : writing.Scans)
    (position : Level) : (writing.inside position).Scans := by
  unfold Writing.inside
  split_ifs
  · exact scans
  · have whole := Lexes.parens scans
    simpa [Scans, enclosed] using whole

theorem Scans.joined {level : Level} {symbol : String} {operator : List Token} (first : left.Scans)
    (between : Lexes lexeme (·.head? = some ' ') symbol.toList operator) (second : right.Scans) :
    (Writing.joined level symbol operator left right).Scans := by
  have blank : Lexes lexeme anywhere [' '] [] := .space rfl
  have behind := between.append (blank.append second fun _ _ => trivial) fun _ _ => rfl
  simpa [Scans, Writing.joined] using first.spaced behind

theorem Scans.listed {items : List Writing} (each : ∀ item ∈ items, item.Scans) :
    (Writing.listed items).Scans := by
  have whole := (lexes_commaSeparated each).parens
  simpa [Scans, Writing.listed] using whole

end Writing

/-- An operator that is a word or several. -/
theorem Reading.Lexes.wordy {piece : List Char} {tokens : List Token}
    (lexes : Lexes lexeme Apart piece tokens) : Lexes lexeme (·.head? = some ' ') piece tokens := by
  refine lexes.imp fun rest blank => ?_
  obtain ⟨tail, rfl⟩ := List.head?_eq_some_iff.1 blank
  exact apart_mark

namespace Expr.Formula

theorem scans {expr : Expr} (formula : expr.Formula) : expr.writing.Scans := by
  induction formula with
  | @connective _ op _ _ _ _ ih ih' =>
    have keyword : IsWord op.keyword := by cases op <;> decide
    exact (ih.inside _).joined (lexes_keyword keyword).wordy (ih'.inside _)
  | not _ ih =>
    have whole := (lexes_keyword (show IsWord "NOT" by decide)).spaced (ih.inside .negation)
    simpa [Writing.Scans, writing, BoolExpr.writing] using whole
  | @comparison _ op _ _ _ _ ih ih' => exact (ih.inside _).joined (lexes_relation op) (ih'.inside _)
  | @bounds _ op _ _ _ _ _ _ ih ih' ih'' =>
    have and : Lexes lexeme Apart "AND".toList [.word "AND"] := lexes_keyword (by decide)
    exact (ih.inside _).joined (lexes_boundsOp op).wordy
      ((ih'.inside _).joined and.wordy (ih''.inside _))
  | @nullTest _ op _ _ ih =>
    have whole := (ih.inside .sum).spaced (lexes_nullTestOp op)
    simpa [Writing.Scans, writing, BoolExpr.writing] using whole
  | inList _ _ ih ihs =>
    have candidates : (listed (ValueExpr.writings _)).Scans := .listed fun item member => by
      rw [ValueExpr.writings_eq_map, List.mem_map] at member
      obtain ⟨candidate, member, rfl⟩ := member
      exact ihs candidate member
    have keyword : Lexes lexeme Apart "IN".toList [.word "IN"] := lexes_keyword (by decide)
    exact (ih.inside _).joined keyword.wordy candidates
  | wrapper _ ih => exact ih
  | path named _ => exact lexes_dotted named
  | parameter word =>
    have whole := lexes_parameter word
    simpa [Writing.Scans, writing, ValueExpr.writing, ValueExpr.text, ValueExpr.tokens, toString_text]
      using whole
  | string => exact lexes_constant _
  | natural => exact lexes_constant _
  | @arithmetic _ op _ _ _ _ ih ih' => exact (ih.inside _).joined (lexes_arithmetic op) (ih'.inside _)
  | @unary _ sign _ _ _ ih =>
    have whole := (lexes_sign sign).append (ih.inside .signed) fun _ _ => trivial
    simpa [Writing.Scans, writing, ValueExpr.writing] using whole

end Expr.Formula

/-! ### Reading -/

theorem Reading.ExpressionReader.Begins.inside {writing : Writing} {good : Expr → Prop}
    (one : Begins writing.level writing.depth writing.tokens good) (position : Level) :
    Begins position (writing.inside position).depth (writing.inside position).tokens good := by
  unfold Writing.inside
  split_ifs with tight
  · exact one.climb tight
  · exact .of_primary one.group

theorem Writing.depth_listed_le {items : List Writing} {k : Nat} :
    (listed items).depth ≤ k ↔ ∀ item ∈ items, item.depth + 1 ≤ k := by
  change (items.map fun item => item.depth + 1).foldr max 0 ≤ k ↔ _
  induction items with
  | nil => simp
  | cons item items ih => rw [List.map_cons, List.foldr_cons, Nat.max_le, ih, List.forall_mem_cons]

namespace Expr.Formula

/-- No truth value stands where a value is wrapped. -/
theorem bare_ne_boolean {node : ValueExpr} (formula : (Expr.value node).Formula) :
    ∀ span truth, node.bare ≠ .constant span (.boolean truth) := by
  intro span truth same
  cases formula with
  | natural => exact Constant.ofInteger_ne_boolean (ValueExpr.constant.inj same).2
  | _ => cases same

/-- What a minus stands in front of does not start with a number. -/
theorem wordy {node : ValueExpr} (formula : (Expr.value node).Formula)
    (apart : ∀ place word, node ≠ .constant place (.ofInteger word)) :
    numberText? (node.writing.inside .signed).tokens.head? = none := by
  cases formula with
  | @path span name resolved =>
    have isName : ValueExpr.negated? .minus (.path span name resolved) = none := rfl
    exact wordy_of_negated? isName
  | parameter => rfl
  | string => rfl
  | natural => exact absurd rfl (apart _ _)
  | @arithmetic _ op => cases op <;> rfl
  | @unary _ sign => cases sign <;> rfl

theorem begins {expr : Expr} (formula : expr.Formula) :
    Begins expr.writing.level expr.writing.depth expr.writing.tokens expr.Recovered := by
  induction formula with
  | connective _ _ ih ih' =>
    exact (Begins.connective (ih.inside _) (ih'.inside _)).mono fun x => asPredicate_of_bool
  | not _ ih => exact (Begins.not (ih.inside _)).mono fun x => asPredicate_of_bool
  | comparison _ _ ih ih' =>
    exact (Begins.comparison (ih.inside _) (ih'.inside _)).mono fun x => asPredicate_of_bool
  | bounds _ _ _ ih ih' ih'' =>
    exact (Begins.bounds (ih.inside _) (ih'.inside _) (ih''.inside _)).mono fun x => asPredicate_of_bool
  | nullTest _ ih => exact (Begins.nullTest (ih.inside _)).mono fun x => asPredicate_of_bool
  | @inList _ _ candidates _ _ ih ihs =>
    have each : ItemsBegin ((candidates.map ValueExpr.writing).map fun item => (item.depth, item.tokens))
        (ValueExpr.bares candidates) := by
      rw [ValueExpr.bares_eq_map, List.map_map, ItemsBegin, List.forall₂_map_left_iff,
        List.forall₂_map_right_iff, List.forall₂_same]
      exact fun candidate member => (ihs candidate member).climb (Nat.zero_le _)
    have whole := Begins.inList (ih.inside .sum) each fun k => by
      rw [List.forall_mem_map, Writing.depth_listed_le]
    rw [List.map_map, ← ValueExpr.writings_eq_map] at whole
    exact whole.mono fun x => asPredicate_of_bool
  | wrapper only ih => exact ih.mono fun x same => asPredicate_open same only.bare_ne_boolean
  | @path span name resolved named starts =>
    have leaf : Spelled (.value (.path span name resolved)) := .path named starts
    exact .of_primary leaf.primary
  | @parameter span name type word =>
    have leaf : Spelled (.value (.parameter span name type)) := .parameter word
    exact .of_primary leaf.primary
  | @string _ text => exact .of_primary (primary_constant (.string text))
  | @natural _ word _ => exact .of_primary (primary_constant (.ofInteger word))
  | arithmetic _ _ ih ih' => exact Begins.arithmetic (ih.inside _) (ih'.inside _)
  | unary only apart ih => exact Begins.unary (ih.inside _) fun isMinus => only.wordy (apart isMinus)

end Expr.Formula

/-- A predicate or a value is read back from its writing exactly if it needs no more levels than
the reader allows, the outermost expression being one. -/
theorem reads_writing :
    (∀ node : BoolExpr, (Expr.bool node).Formula →
      if node.writing.depth + 1 ≤ nestingLimit then
        ∃ read, readBool node.writing.text = .ok read ∧ read.bare = node.bare
      else ∃ cause, readBool node.writing.text = .error cause) ∧
    ∀ node : ValueExpr, (Expr.value node).Formula →
      if node.writing.depth + 1 ≤ nestingLimit then
        ∃ read, readValue node.writing.text = .ok read ∧ read.bare = node.bare
      else ∃ cause, readValue node.writing.text = .error cause := by
  refine ⟨fun node formula => ?_, fun node formula => ?_⟩
  · obtain ⟨succeeds, fails⟩ := readExpr_of_begins formula.scans formula.begins
    split_ifs with fits
    · obtain ⟨x, reads, good⟩ := succeeds fits
      exact ⟨asPredicate x, congrArg (Functor.map asPredicate) reads, good⟩
    · obtain ⟨cause, reads⟩ := fails fits
      exact ⟨cause, congrArg (Functor.map asPredicate) reads⟩
  · obtain ⟨succeeds, fails⟩ := readExpr_of_begins formula.scans formula.begins
    split_ifs with fits
    · obtain ⟨x, reads, good⟩ := succeeds fits
      cases x with
      | bool => cases good
      | value read => exact ⟨read, congrArg (· >>= asValue) reads, Expr.value.inj good⟩
    · obtain ⟨cause, reads⟩ := fails fits
      exact ⟨cause, congrArg (· >>= asValue) reads⟩

private def name (text : String) : ValueExpr := .path .none text none

/-- `a - (b - 1) * -a` -/
private def difference : ValueExpr :=
  .binary .none .subtract (name "a")
    (.binary .none .multiply
      (.binary .none .subtract (name "b") (.constant .none (.integer 1)))
      (.unary .none .minus (name "a")))

/-- `NOT (a OR b) AND a - (b - 1) * -a < 2` -/
private def condition : BoolExpr :=
  .binary .none .and
    (.not .none (.binary .none .or (.wrapper .none (name "a")) (.wrapper .none (name "b"))))
    (.comparison .none .lt difference (.constant .none (.integer 2)))

theorem reads_writing_mixed :
    condition.writing.text = "NOT (a OR b) AND a - (b - 1) * -a < 2" ∧
      difference.writing.text = "a - (b - 1) * -a" ∧
      (∃ read, readBool condition.writing.text = .ok read ∧ read.bare = condition) ∧
      ∃ read, readValue difference.writing.text = .ok read ∧ read.bare = difference := by
  have a : (Expr.value (name "a")).Formula :=
    .path (isName_of_word (by decide)) (by unfold Starts; decide +kernel)
  have b : (Expr.value (name "b")).Formula :=
    .path (isName_of_word (by decide)) (by unfold Starts; decide +kernel)
  have one : (Expr.value (.constant .none (.ofInteger 1))).Formula := .natural (by decide)
  have two : (Expr.value (.constant .none (.ofInteger 2))).Formula := .natural (by decide)
  have value : (Expr.value difference).Formula :=
    .arithmetic a (.arithmetic (.arithmetic b one) (.unary a fun _ _ _ => by rintro ⟨⟩))
  have predicate : (Expr.bool condition).Formula :=
    .connective (.not (.connective (.wrapper a) (.wrapper b))) (.comparison value two)
  refine ⟨by decide +kernel, by decide +kernel, ?_, ?_⟩
  · have read := reads_writing.1 condition predicate
    rwa [if_pos (by decide +kernel)] at read
  · have read := reads_writing.2 difference value
    rwa [if_pos (by decide +kernel)] at read

end EventQuery
