import EventQuery.Proofs.Production
import EventQuery.Reading.PatternReader

/-!
The numbers, quantifiers and brackets of patterns as they are written: what tokens they consist
of, what they mean, and that they are what the reader takes for numbers, quantifiers and brackets.
-/
namespace EventQuery.Reading.PatternReader

variable {rest rest' after : List PatternToken} {α : Type}

/-- On a token that has to come, the rest is read. -/
theorem parses_expect {β : Type} {fits : Prop} {token : PatternToken} {expected : String}
    {next : Unit → Production β} {wanted : β → Prop} (further : Parses fits (next ()) rest after wanted) :
    Parses fits (expect token expected >>= next) (token :: rest) after wanted :=
  .bind (P := fun _ => True) (.skip (.pure trivial)) fun _ _ => further

/-! ### Numbers -/

/-- A number with its sign, as it is written. -/
structure Numeral where
  negative : Bool
  digits : String
  deriving DecidableEq, Repr

namespace Numeral

def tokens (numeral : Numeral) : List PatternToken :=
  (if numeral.negative then [.minus] else []) ++ [.number numeral.digits]

/-- The number, if it is not too large. -/
def value? (numeral : Numeral) : Option Int64 :=
  let signed := if numeral.negative then "-" ++ numeral.digits else numeral.digits
  (Number.Reader.integer? signed.toList).bind Number.Width.int64?

def Fits (numeral : Numeral) : Prop := numeral.value?.isSome = true

instance (numeral : Numeral) : Decidable numeral.Fits :=
  inferInstanceAs (Decidable (numeral.value?.isSome = true))

def value (numeral : Numeral) : Int64 := numeral.value?.getD 0

theorem tokens_append_inj {numeral other : Numeral}
    (same : numeral.tokens ++ rest = other.tokens ++ rest') : numeral = other ∧ rest = rest' := by
  obtain ⟨negative, digits⟩ := numeral
  obtain ⟨negative', digits'⟩ := other
  cases negative <;> cases negative' <;> simp_all [tokens]

/-- A number starts with a digit or a minus. -/
theorem head_ne {numeral : Numeral} {token : PatternToken} (unsigned : token ≠ .minus)
    (wordless : ∀ text, token ≠ .number text) : (numeral.tokens ++ rest).head? ≠ some token := by
  unfold tokens
  split_ifs <;> simp [unsigned.symm, (wordless _).symm]

end Numeral

variable {numeral : Numeral}

theorem parses_number :
    Parses numeral.Fits number (numeral.tokens ++ rest) rest (· = numeral.value) := by
  unfold number Numeral.tokens
  rw [List.append_assoc]
  refine .skip_optional (by simp) (.place fun span => .peek (.advance ?_))
  simp only [Bool.decide_eq_true]
  have fits : numeral.Fits ↔ numeral.value?.isSome = true := Iff.rfl
  cases known : numeral.value? with
  | none =>
    simp only [Numeral.value?] at known
    rw [known]
    exact .congr (by simp [fits, Numeral.value?, known]) .fail
  | some word =>
    have value : numeral.value = word := by rw [Numeral.value, known, Option.getD_some]
    simp only [Numeral.value?] at known
    rw [known]
    exact .congr (by simp [fits, Numeral.value?, known]) (.pure value.symm)

/-- What was read up to the second cursor is written as these tokens. -/
def Took (cursor : Cursor PatternToken) (tokens : List PatternToken)
    (cursor' : Cursor PatternToken) :
    Prop :=
  cursor.tokens = tokens ++ cursor'.tokens

namespace Took

variable {cursor cursor' cursor'' : Cursor PatternToken} {tokens tokens' : List PatternToken}

theorem nothing : Took cursor [] cursor := rfl

theorem token {placed : Placed PatternToken} {others : List (Placed PatternToken)}
    {token : PatternToken} (shape : cursor.rest = placed :: others) (same : placed.token = token) :
    Took cursor [token] (cursor.behind placed others) :=
  same ▸ Cursor.tokens_behind shape

theorem append (first : Took cursor tokens cursor') (second : Took cursor' tokens' cursor'') :
    Took cursor (tokens ++ tokens') cursor'' := by
  rw [Took, first, second, List.append_assoc]

end Took

variable {cursor : Cursor PatternToken}

theorem leads_unexpected {expected : String} {good : α → Cursor PatternToken → Prop} :
    Leads cursor (unexpected expected) good :=
  .peek (.place .fail)

theorem leads_skip {token : PatternToken} :
    Leads cursor (Reader.skip token) fun taken cursor' =>
      Took cursor (if taken then [token] else []) cursor' := by
  rw [← bind_pure (Reader.skip token)]
  exact .skip (fun placed others shape same => .pure (.token shape same)) fun _ => .pure .nothing

theorem leads_expect {token : PatternToken} {expected : String} :
    Leads cursor (expect token expected) fun _ cursor' => Took cursor [token] cursor' := by
  refine leads_skip.bind fun taken cursor' took => ?_
  cases taken with
  | true => exact .pure took
  | false => exact leads_unexpected

/-- Whatever is read as a number is one. -/
theorem leads_number :
    Leads cursor number fun _ cursor' => ∃ numeral : Numeral, Took cursor numeral.tokens cursor' := by
  refine leads_skip.bind fun negative cursor' sign => .place (.peek ?_)
  split
  · rename_i text found
    refine .advance found fun placed others shape same => ?_
    have took : Took cursor (Numeral.tokens ⟨negative, text⟩) (cursor'.behind placed others) :=
      sign.append (.token shape same)
    dsimp only
    split
    · exact .pure ⟨_, took⟩
    · exact .fail
  · exact leads_unexpected

/-! ### Quantifiers -/

inductive Quantifier where
  | star | plus | question
  | exactly (count : Numeral)
  | between (least most : Numeral)
  | atLeast (least : Numeral)
  | atMost (most : Numeral)
  deriving DecidableEq, Repr

namespace Quantifier

def tokens : Quantifier → List PatternToken
  | star => [.star]
  | plus => [.plus]
  | question => [.question]
  | exactly count => .openBrace :: (count.tokens ++ [.closeBrace])
  | between least most => .openBrace :: (least.tokens ++ .comma :: (most.tokens ++ [.closeBrace]))
  | atLeast least => .openBrace :: (least.tokens ++ [.comma, .star, .closeBrace])
  | atMost most => .openBrace :: .star :: .comma :: (most.tokens ++ [.closeBrace])

def numerals : Quantifier → List Numeral
  | star | plus | question => []
  | exactly count => [count]
  | between least most => [least, most]
  | atLeast least => [least]
  | atMost most => [most]

def Fits (quantifier : Quantifier) : Prop := ∀ numeral ∈ quantifier.numerals, numeral.Fits

/-- How often something is repeated, at least and at most. -/
def bounds : Quantifier → Int64 × Option Int64
  | star => (0, none)
  | plus => (1, none)
  | question => (0, some 1)
  | exactly count => (count.value, some count.value)
  | between least most => (least.value, some most.value)
  | atLeast least => (least.value, none)
  | atMost most => (0, some most.value)

end Quantifier

variable {quantifier : Quantifier}

private theorem parses_some_number :
    Parses numeral.Fits (some <$> number) (numeral.tokens ++ rest) rest (· = some numeral.value) :=
  parses_number.map fun _ same => congrArg some same

/-- Bounds that start with a number. -/
private theorem parses_least {fits : Prop} {next : Option Int64 → Production (Int64 × Option Int64)}
    {wanted : Int64 × Option Int64 → Prop}
    (further : Parses fits (next (some numeral.value)) rest after wanted) :
    Parses (numeral.Fits ∧ fits) (do
      let least ← if ← Reader.skip .star then pure none else some <$> number
      next least : Production (Int64 × Option Int64)) (numeral.tokens ++ rest) after wanted := by
  refine .skip_other (Numeral.head_ne (by simp) (by simp)) (parses_some_number.both ?_)
  rintro _ rfl
  exact further

/-- Bounds that end with a number. -/
private theorem parses_most {least : Int64} :
    Parses numeral.Fits (do
      let most ← some <$> number
      expect .closeBrace "`\x7d`"
      return (least, most) : Production (Int64 × Option Int64))
      (numeral.tokens ++ .closeBrace :: rest) rest (· = (least, some numeral.value)) := by
  refine parses_some_number.finish ?_
  rintro _ rfl
  exact parses_expect (.pure rfl)

theorem parses_bracedBounds {tokens : List PatternToken}
    (shape : quantifier.tokens ++ rest = .openBrace :: tokens) :
    Parses quantifier.Fits bracedBounds tokens rest (· = quantifier.bounds) := by
  cases quantifier with
  | star => cases shape
  | plus => cases shape
  | question => cases shape
  | exactly count =>
    obtain rfl : count.tokens ++ .closeBrace :: rest = tokens := by simpa [Quantifier.tokens] using shape
    refine .congr (show (count.Fits ∧ True) ↔ _ by simp [Quantifier.Fits, Quantifier.numerals]) ?_
    exact parses_least (.skip (.pure rfl))
  | between least most =>
    obtain rfl : least.tokens ++ .comma :: (most.tokens ++ .closeBrace :: rest) = tokens := by
      simpa [Quantifier.tokens] using shape
    refine .congr (show (least.Fits ∧ most.Fits) ↔ _ by simp [Quantifier.Fits, Quantifier.numerals]) ?_
    refine parses_least (.skip_other (by simp) (parses_expect (.skip_other ?_ parses_most)))
    exact Numeral.head_ne (by simp) (by simp)
  | atLeast least =>
    obtain rfl : least.tokens ++ .comma :: .star :: .closeBrace :: rest = tokens := by
      simpa [Quantifier.tokens] using shape
    refine .congr (show (least.Fits ∧ True) ↔ _ by simp [Quantifier.Fits, Quantifier.numerals]) ?_
    refine parses_least (.skip_other (by simp) (parses_expect (.skip (.bind (.pure rfl) ?_))))
    rintro _ rfl
    exact parses_expect (.pure rfl)
  | atMost most =>
    obtain rfl : .star :: .comma :: (most.tokens ++ .closeBrace :: rest) = tokens := by
      simpa [Quantifier.tokens] using shape
    refine .congr (show most.Fits ↔ _ by simp [Quantifier.Fits, Quantifier.numerals]) ?_
    refine .skip (.bind (.pure rfl) ?_)
    rintro _ rfl
    refine .skip_other (by simp) (parses_expect (.bind (.pure rfl) ?_))
    rintro _ rfl
    exact parses_most

theorem parses_quantifier :
    Parses quantifier.Fits quantifier? (quantifier.tokens ++ rest) rest (· = some quantifier.bounds) := by
  have braced {tokens : List PatternToken} (shape : quantifier.tokens ++ rest = .openBrace :: tokens) :
      Parses quantifier.Fits quantifier? (quantifier.tokens ++ rest) rest (· = some quantifier.bounds) := by
    rw [shape]
    exact .peek (.advance ((parses_bracedBounds shape).map fun _ same => congrArg some same))
  have plain : Quantifier.Fits .star ∧ Quantifier.Fits .plus ∧ Quantifier.Fits .question := by
    simp [Quantifier.Fits, Quantifier.numerals]
  cases quantifier with
  | star => exact .congr (iff_true_intro plain.1).symm (.peek (.advance (.pure rfl)))
  | plus => exact .congr (iff_true_intro plain.2.1).symm (.peek (.advance (.pure rfl)))
  | question => exact .congr (iff_true_intro plain.2.2).symm (.peek (.advance (.pure rfl)))
  | exactly => exact braced rfl
  | between => exact braced rfl
  | atLeast => exact braced rfl
  | atMost => exact braced rfl

private theorem leads_most {least : Int64} : Leads cursor (do
    let most ← some <$> number
    expect .closeBrace "`\x7d`"
    return (least, most) : Production (Int64 × Option Int64))
    fun _ cursor' => ∃ numeral : Numeral, Took cursor (numeral.tokens ++ [.closeBrace]) cursor' := by
  rw [bind_map_left]
  refine leads_number.bind fun value cursor₁ ⟨numeral, took⟩ => leads_expect.bind fun _ cursor₂ took₁ => ?_
  exact .pure ⟨numeral, took.append took₁⟩

theorem leads_bracedBounds : Leads cursor bracedBounds fun _ cursor' => ∃ quantifier : Quantifier,
    .openBrace :: cursor.tokens = quantifier.tokens ++ cursor'.tokens := by
  refine leads_skip.bind fun unbounded cursor₁ (took : Took _ _ _) => ?_
  cases unbounded with
  | true =>
    refine .given (leads_skip.bind fun closed cursor₂ (took₂ : Took _ _ _) => ?_)
    cases closed with
    | true => exact (leads_unexpected : Leads _ _ fun _ _ => False).bind fun _ _ => False.elim
    | false =>
      refine leads_expect.bind fun _ cursor₃ took₃ => .given (leads_most.mono ?_)
      rintro _ cursor₄ ⟨most, took₄⟩
      exact ⟨.atMost most, by
        rw [took, took₂, took₃, took₄]
        simp [Quantifier.tokens]⟩
  | false =>
    rw [if_neg (by decide), bind_map_left]
    refine leads_number.bind fun value cursor₂ ⟨least, took₂⟩ => ?_
    refine leads_skip.bind fun closed cursor₃ (took₃ : Took _ _ _) => ?_
    cases closed with
    | true =>
      exact .pure ⟨.exactly least, by
        rw [took, took₂, took₃]
        simp [Quantifier.tokens]⟩
    | false =>
      refine leads_expect.bind fun _ cursor₄ took₄ => ?_
      refine leads_skip.bind fun unlimited cursor₅ (took₅ : Took _ _ _) => ?_
      cases unlimited with
      | true =>
        refine .given (leads_expect.bind fun _ cursor₆ took₆ => .pure ⟨.atLeast least, ?_⟩)
        rw [took, took₂, took₃, took₄, took₅, took₆]
        simp [Quantifier.tokens]
      | false =>
        refine leads_most.mono ?_
        rintro _ cursor₆ ⟨most, took₆⟩
        exact ⟨.between least most, by
          rw [took, took₂, took₃, took₄, took₅, took₆]
          simp [Quantifier.tokens]⟩

/-- Whatever is read as a quantifier is one; if there is none, nothing is read. -/
theorem leads_quantifier : Leads cursor quantifier? fun found cursor' =>
    if found.isSome then ∃ quantifier : Quantifier, Took cursor quantifier.tokens cursor'
    else cursor' = cursor := by
  refine .peek ?_
  split
  · rename_i found
    exact .advance found fun placed others shape same => .pure ⟨.star, Took.token shape same⟩
  · rename_i found
    exact .advance found fun placed others shape same => .pure ⟨.plus, Took.token shape same⟩
  · rename_i found
    exact .advance found fun placed others shape same => .pure ⟨.question, Took.token shape same⟩
  · rename_i found
    refine .advance found fun placed others shape same => leads_bracedBounds.map ?_
    rintro bounds cursor' ⟨quantifier, took⟩
    exact ⟨quantifier, by rw [Took, Cursor.tokens_behind shape, same, took]⟩
  · exact .pure rfl

/-! ### Brackets -/

/-- A bracket as it is written. -/
def bracketPhrase (negating : Bool) (first : Numeral) (others : List Numeral) : List PatternToken :=
  (if negating then [.caret] else []) ++
    .openBracket :: (first.tokens ++ (others.flatMap Numeral.tokens ++ [.closeBracket]))

theorem length_le_flatMap_tokens (numerals : List Numeral) :
    numerals.length ≤ (numerals.flatMap Numeral.tokens).length := by
  induction numerals with
  | nil => exact Nat.le_refl _
  | cons numeral numerals ih =>
    have nonempty : 0 < numeral.tokens.length := by simp [Numeral.tokens]
    simp only [List.flatMap_cons, List.length_append, List.length_cons]
    omega

theorem parses_bracketRest {numerals : List Numeral} {rounds : Nat}
    (enough : numerals.length < rounds) :
    Parses (∀ numeral ∈ numerals, numeral.Fits) (bracketRest rounds)
      (numerals.flatMap Numeral.tokens ++ .closeBracket :: rest) rest
      (· = numerals.map Numeral.value) := by
  obtain ⟨rounds, rfl⟩ := Nat.exists_eq_succ_of_ne_zero (Nat.ne_zero_of_lt enough)
  induction numerals generalizing rounds with
  | nil => exact .congr (by simp) (.skip (.pure rfl))
  | cons numeral numerals ih =>
    obtain ⟨rounds, rfl⟩ := Nat.exists_eq_succ_of_ne_zero (Nat.ne_zero_of_lt (Nat.lt_of_succ_lt_succ enough))
    rw [List.flatMap_cons, List.append_assoc, bracketRest]
    refine .congr List.forall_mem_cons.symm (.skip_other (Numeral.head_ne (by simp) (by simp)) ?_)
    refine parses_number.both fun _ same => (ih rounds (Nat.lt_of_succ_lt_succ enough)).finish ?_
    rintro _ rfl
    exact .pure (by rw [same, List.map_cons])

theorem parses_bracket {negating : Bool} {first : Numeral} {others : List Numeral} (start : Nat) :
    Parses (∀ numeral ∈ first :: others, numeral.Fits) (bracket start)
      (bracketPhrase negating first others ++ rest) rest
      fun value => ∃ span, value = .bracket span negating ((first :: others).map Numeral.value) true := by
  have shape : bracketPhrase negating first others ++ rest = (if negating then [.caret] else []) ++
      .openBracket :: (first.tokens ++ (others.flatMap Numeral.tokens ++ .closeBracket :: rest)) := by
    simp [bracketPhrase]
  rw [shape]
  refine .congr List.forall_mem_cons.symm (.skip_optional (by simp) (parses_expect ?_))
  refine parses_number.both fun _ same => .remaining ((parses_bracketRest ?_).finish ?_)
  · have enough := length_le_flatMap_tokens others
    rw [List.length_append]
    omega
  · rintro _ rfl
    exact .spanFrom fun span => .pure ⟨span, by rw [same, Bool.decide_eq_true, List.map_cons]⟩

theorem leads_bracketRest {rounds : Nat} : Leads cursor (bracketRest rounds) fun _ cursor' =>
    ∃ numerals : List Numeral, Took cursor (numerals.flatMap Numeral.tokens ++ [.closeBracket]) cursor' := by
  induction rounds generalizing cursor with
  | zero => exact leads_unexpected
  | succ rounds ih =>
    refine leads_skip.bind fun closed cursor₁ (took : Took _ _ _) => ?_
    cases closed with
    | true => exact .pure ⟨[], took⟩
    | false =>
      refine leads_number.bind fun value cursor₂ ⟨numeral, took₂⟩ => ?_
      refine ih.bind fun values cursor₃ ⟨numerals, took₃⟩ => .pure ⟨numeral :: numerals, ?_⟩
      rw [List.flatMap_cons, List.append_assoc]
      exact took.append (took₂.append took₃)

theorem leads_bracket {start : Nat} : Leads cursor (bracket start) fun _ cursor' =>
    ∃ negating first others, Took cursor (bracketPhrase negating first others) cursor' := by
  refine leads_skip.bind fun negating cursor₁ took₁ => leads_expect.bind fun _ cursor₂ took₂ => ?_
  refine leads_number.bind fun value cursor₃ ⟨first, took₃⟩ => .remaining ?_
  refine leads_bracketRest.bind fun values cursor₄ ⟨others, took₄⟩ => .spanFrom (.pure ?_)
  exact ⟨negating, first, others, took₁.append (took₂.append (took₃.append took₄))⟩

/-- Words that can be told apart can be told apart in a row, if the row is over where no further
word follows. -/
theorem flatMap_append_inj {write : α → List PatternToken} {items others : List α}
    (inj : ∀ item other rest rest', write item ++ rest = write other ++ rest' →
      item = other ∧ rest = rest')
    (ends : ∀ item more, rest ≠ write item ++ more) (ends' : ∀ item more, rest' ≠ write item ++ more)
    (same : items.flatMap write ++ rest = others.flatMap write ++ rest') :
    items = others ∧ rest = rest' := by
  induction items generalizing others with
  | nil =>
    cases others with
    | nil => exact ⟨rfl, same⟩
    | cons other others =>
      rw [List.flatMap_cons, List.append_assoc] at same
      exact absurd same (ends _ _)
  | cons item items ih =>
    cases others with
    | nil =>
      rw [List.flatMap_cons, List.append_assoc] at same
      exact absurd same.symm (ends' _ _)
    | cons other others =>
      rw [List.flatMap_cons, List.flatMap_cons, List.append_assoc, List.append_assoc] at same
      obtain ⟨rfl, behind⟩ := inj _ _ _ _ same
      obtain ⟨rfl, rfl⟩ := ih behind
      exact ⟨rfl, rfl⟩

theorem bracketPhrase_append_inj {negating negating' : Bool} {first first' : Numeral}
    {others others' : List Numeral} (same : bracketPhrase negating first others ++ rest =
      bracketPhrase negating' first' others' ++ rest') :
    negating = negating' ∧ first = first' ∧ others = others' ∧ rest = rest' := by
  have signs : negating = negating' := by
    cases negating <;> cases negating' <;> simp_all [bracketPhrase]
  subst signs
  simp only [bracketPhrase, List.append_assoc, List.append_cancel_left_eq, List.cons_append,
    List.cons.injEq, true_and, List.nil_append] at same
  obtain ⟨rfl, behind⟩ := Numeral.tokens_append_inj same
  have closed (rest : List PatternToken) (numeral : Numeral) (more : List PatternToken) :
      .closeBracket :: rest ≠ numeral.tokens ++ more := fun same =>
    Numeral.head_ne (by simp) (by simp) (congrArg List.head? same).symm
  obtain ⟨rfl, left⟩ :=
    flatMap_append_inj (fun _ _ _ _ => Numeral.tokens_append_inj) (closed rest) (closed rest') behind
  exact ⟨rfl, rfl, rfl, (List.cons.inj left).2⟩

end EventQuery.Reading.PatternReader
