import EventQuery.Proofs.CaptureFlags
import EventQuery.Proofs.PatternPhrases
import EventQuery.Proofs.PatternRoundTrip

/-!
The grammar of patterns. A text is read as a pattern exactly if its tokens have a derivation whose
groups are not nested too deep and whose numbers are not too large; there is at most one
derivation, and what is read is what it stands for.

A derivation continues differently behind each of its parts than any other one would, so that the
next token decides between them: what a part may be followed by is never what it goes on with.
-/
namespace EventQuery.Reading.PatternReader

open Pattern (separatorToken)

theorem silent_unspanned (pattern : Pattern) :
    pattern.unspanned.silent = pattern.silent.unspanned := by
  induction pattern using Pattern.byParts with
  | step => rfl
  | list span op items capturing ih =>
    have same : (items.map Pattern.unspanned).map Pattern.silent =
        (items.map Pattern.silent).map Pattern.unspanned := by
      rw [List.map_map, List.map_map]
      exact List.map_congr_left ih
    simp only [Pattern.unspanned, Pattern.unspannedAll_eq_map, Pattern.silent, Pattern.silentAll_eq_map, same]
  | repetition span least most child capturing ih => simp only [Pattern.unspanned, Pattern.silent, ih]
  | bracket => rfl

/-! ### Derivations -/

/-- What the grammar has rules for. -/
inductive Nonterminal where
  /-- Parts of a list with its separator between them. -/
  | list (op : ListOp)
  /-- The parts of a list behind the first one, each behind a separator. -/
  | more (op : ListOp)
  | item
  | atom

/-- What the parts of a list are. -/
def Nonterminal.part : ListOp → Nonterminal
  | .alternatives => .list .sequence
  | .sequence => .item

/-- The derivations of the grammar

    pattern     = alternatives
    alternatives = sequence (| sequence)*
    sequence    = item (: item)*
    item        = atom quantifier*
    atom        = number | ( pattern ) | (?: pattern ) | [^] [ number+ ]
-/
inductive Derivation : Nonterminal → Type where
  | list (op : ListOp) (first : Derivation (.part op)) (others : Derivation (.more op)) :
    Derivation (.list op)
  | done (op : ListOp) : Derivation (.more op)
  | more (op : ListOp) (next : Derivation (.part op)) (others : Derivation (.more op)) :
    Derivation (.more op)
  | item (atom : Derivation .atom) (quantifiers : List Quantifier) : Derivation .item
  | step (id : Numeral) : Derivation .atom
  | group (silent : Bool) (inner : Derivation (.list .alternatives)) : Derivation .atom
  | bracket (negating : Bool) (first : Numeral) (others : List Numeral) : Derivation .atom

/-- The repetition that a quantifier makes of a pattern. -/
def Quantifier.repetition (quantifier : Quantifier) (child : Pattern) : Pattern :=
  .repetition .none quantifier.bounds.1 quantifier.bounds.2 child child.capturing

/-- A single part stands alone. -/
def listOf (op : ListOp) : List Pattern → Pattern
  | [part] => part
  | parts => .list .none op parts true

namespace Derivation

def tokens : {symbol : Nonterminal} → Derivation symbol → List PatternToken
  | _, .list _ first others => first.tokens ++ others.tokens
  | _, .done _ => []
  | _, .more op next others => separatorToken op :: (next.tokens ++ others.tokens)
  | _, .item atom quantifiers => atom.tokens ++ quantifiers.flatMap Quantifier.tokens
  | _, .step id => id.tokens
  | _, .group silent inner =>
    (if silent then .openSilent else .openParen) :: (inner.tokens ++ [.closeParen])
  | _, .bracket negating first others => bracketPhrase negating first others

/-- How many groups are nested in each other. -/
def depth : {symbol : Nonterminal} → Derivation symbol → Nat
  | _, .list _ first others => max first.depth others.depth
  | _, .done _ => 0
  | _, .more _ next others => max next.depth others.depth
  | _, .item atom _ => atom.depth
  | _, .step _ => 0
  | _, .group _ inner => inner.depth + 1
  | _, .bracket .. => 0

def numerals : {symbol : Nonterminal} → Derivation symbol → List Numeral
  | _, .list _ first others => first.numerals ++ others.numerals
  | _, .done _ => []
  | _, .more _ next others => next.numerals ++ others.numerals
  | _, .item atom quantifiers => atom.numerals ++ quantifiers.flatMap Quantifier.numerals
  | _, .step id => [id]
  | _, .group _ inner => inner.numerals
  | _, .bracket _ first others => first :: others

/-- The pattern that the derivation stands for; for the rest of a list, the patterns. -/
def patterns : {symbol : Nonterminal} → Derivation symbol → List Pattern
  | _, .list op first others => [listOf op (first.patterns ++ others.patterns)]
  | _, .done _ => []
  | _, .more _ next others => next.patterns ++ others.patterns
  | _, .item atom quantifiers =>
    atom.patterns.map fun pattern =>
      quantifiers.foldl (fun child quantifier => quantifier.repetition child) pattern
  | _, .step id => [.ofStep id.value]
  | _, .group silent inner => if silent then inner.patterns.map Pattern.silent else inner.patterns
  | _, .bracket negating first others => [.ofBracket negating ((first :: others).map Numeral.value)]

/-- All numbers fit. -/
def Fits {symbol : Nonterminal} (derivation : Derivation symbol) : Prop :=
  ∀ numeral ∈ derivation.numerals, numeral.Fits

end Derivation

/-! ### What may follow -/

namespace Nonterminal

/-- The tokens that something goes on with. -/
def goesOn : Nonterminal → List PatternToken
  | atom => []
  | item => [.star, .plus, .question, .openBrace]
  | list .sequence | more .sequence => [.star, .plus, .question, .openBrace, .colon]
  | list .alternatives | more .alternatives => [.star, .plus, .question, .openBrace, .colon, .pipe]

/-- The rest does not go on with it. -/
def Ends (symbol : Nonterminal) (rest : List PatternToken) : Prop :=
  ∀ token ∈ rest.head?, token ∉ symbol.goesOn

end Nonterminal

variable {symbol : Nonterminal} {op : ListOp} {rest rest' : List PatternToken} {k : Nat}

theorem Nonterminal.Ends.head_ne (ends : symbol.Ends rest) {token : PatternToken}
    (on : token ∈ symbol.goesOn) : rest.head? ≠ some token := fun found => ends token found on

theorem separatorToken_mem (op : ListOp) :
    separatorToken op ∈ Nonterminal.goesOn (.list op) ∧
      separatorToken op ∈ Nonterminal.goesOn (.more op) := by
  cases op <;> decide

/-- Behind a part comes a separator, or what may follow the list. -/
theorem ends_part (others : Derivation (.more op)) (ends : Nonterminal.Ends (.more op) rest) :
    Nonterminal.Ends (.part op) (others.tokens ++ rest) := by
  cases others with
  | done =>
    intro token found on
    have fewer : (Nonterminal.part op).goesOn ⊆ (Nonterminal.more op).goesOn := by cases op <;> decide
    exact ends token found (fewer on)
  | more =>
    rintro token ⟨⟩
    cases op <;> decide

/-! ### Derivations are read -/

/-- The productions that read the parts of a list. -/
def partReader : ListOp → Nat → Production Pattern
  | .alternatives, levels => separated .sequence .colon (item (pattern levels))
  | .sequence, levels => item (pattern levels)

/-- What the derivation is written as is read if it is not nested too deep and its numbers fit,
and only then. -/
def Derivation.IsRead : {symbol : Nonterminal} → Derivation symbol → Prop
  | .list op, derivation => ∀ k rest, Nonterminal.Ends (.list op) rest →
    Parses (derivation.depth ≤ k ∧ derivation.Fits) (separated op (separatorToken op) (partReader op k))
      (derivation.tokens ++ rest) rest fun value => derivation.patterns = [value.unspanned]
  | .more op, derivation => ∀ k rest rounds, Nonterminal.Ends (.more op) rest →
    derivation.tokens.length ≤ rounds →
    Parses (derivation.depth ≤ k ∧ derivation.Fits)
      (itemsRest (separatorToken op) (partReader op k) rounds)
      (derivation.tokens ++ rest) rest fun values => derivation.patterns = values.map Pattern.unspanned
  | .item, derivation => ∀ k rest, Nonterminal.Ends .item rest →
    Parses (derivation.depth ≤ k ∧ derivation.Fits) (PatternReader.item (pattern k))
      (derivation.tokens ++ rest) rest fun value => derivation.patterns = [value.unspanned]
  | .atom, derivation => ∀ k rest,
    Parses (derivation.depth ≤ k ∧ derivation.Fits) (PatternReader.atom (pattern k))
      (derivation.tokens ++ rest) rest fun value => derivation.patterns = [value.unspanned]

theorem Derivation.IsRead.part {derivation : Derivation (.part op)} (isRead : derivation.IsRead)
    (ends : Nonterminal.Ends (.part op) rest) :
    Parses (derivation.depth ≤ k ∧ derivation.Fits) (partReader op k) (derivation.tokens ++ rest) rest
      fun value => derivation.patterns = [value.unspanned] := by
  cases op with
  | sequence => exact isRead k rest ends
  | alternatives => exact isRead k rest ends

theorem parses_quantified {quantifiers : List Quantifier} {first rounds : Nat} {value : Pattern}
    (ends : NoQuantifier rest) (enough : (quantifiers.flatMap Quantifier.tokens).length ≤ rounds) :
    Parses (∀ quantifier ∈ quantifiers, quantifier.Fits) (quantified first rounds value)
      (quantifiers.flatMap Quantifier.tokens ++ rest) rest
      fun read => quantifiers.foldl (fun child quantifier => quantifier.repetition child)
        value.unspanned = read.unspanned := by
  induction quantifiers generalizing rounds value with
  | nil => exact .congr (by simp) (quantified_end ends rfl)
  | cons quantifier quantifiers ih =>
    have nonempty : 0 < quantifier.tokens.length := by cases quantifier <;> simp [Quantifier.tokens]
    rw [List.flatMap_cons, List.length_append] at enough
    obtain ⟨rounds, rfl⟩ := Nat.exists_eq_add_of_le' (show 1 ≤ rounds by omega)
    rw [List.flatMap_cons, List.append_assoc, quantified]
    refine .congr List.forall_mem_cons.symm (parses_quantifier.both ?_)
    rintro _ rfl
    refine .spanFrom fun span => (ih (show _ ≤ rounds by omega)).mono fun read same => ?_
    rw [← same, List.foldl_cons, Quantifier.repetition, Pattern.capturing_unspanned]
    rfl

namespace Derivation

theorem isRead_list {first : Derivation (.part op)} {others : Derivation (.more op)}
    (isRead : first.IsRead) (areRead : others.IsRead) : (list op first others).IsRead := by
  intro k rest ends
  have fits : ((first.depth ≤ k ∧ first.Fits) ∧ others.depth ≤ k ∧ others.Fits) ↔
      (list op first others).depth ≤ k ∧ (list op first others).Fits := by
    simp only [depth, Fits, numerals, List.forall_mem_append, Nat.max_le]
    tauto
  have behind : Nonterminal.Ends (.more op) rest := by cases op <;> exact ends
  rw [tokens, List.append_assoc]
  refine .congr fits (.start fun start => ?_)
  refine (isRead.part (ends_part others behind)).both fun head isHead => .remaining ?_
  refine (areRead k rest _ behind ?_).finish fun values areOthers => ?_
  · rw [List.length_append]
    exact Nat.le_add_right _ _
  · rw [patterns, isHead, areOthers]
    cases values with
    | nil => exact .pure rfl
    | cons value values =>
      exact .spanFrom fun span =>
        .pure (by simp [listOf, Pattern.unspanned, Pattern.unspannedAll_eq_map])

theorem isRead_done : (done op).IsRead := by
  intro k rest rounds ends enough
  have fits : True ↔ (done op).depth ≤ k ∧ (done op).Fits := by simp [depth, Fits, numerals]
  refine .congr fits ?_
  cases rounds with
  | zero => exact .pure rfl
  | succ rounds => exact .skip_other (ends.head_ne (separatorToken_mem op).2) (.pure rfl)

theorem isRead_more {next : Derivation (.part op)} {others : Derivation (.more op)}
    (isRead : next.IsRead) (areRead : others.IsRead) : (more op next others).IsRead := by
  intro k rest rounds ends enough
  have fits : ((next.depth ≤ k ∧ next.Fits) ∧ others.depth ≤ k ∧ others.Fits) ↔
      (more op next others).depth ≤ k ∧ (more op next others).Fits := by
    simp only [depth, Fits, numerals, List.forall_mem_append, Nat.max_le]
    tauto
  rw [tokens, List.length_cons, List.length_append] at enough
  obtain ⟨rounds, rfl⟩ := Nat.exists_eq_add_of_le' (show 1 ≤ rounds by omega)
  rw [tokens, List.cons_append, List.append_assoc, itemsRest]
  refine .congr fits (.skip ((isRead.part (ends_part others ends)).both fun value isNext => ?_))
  refine (areRead k rest rounds ends (by omega)).finish fun values areOthers => .pure ?_
  rw [patterns, isNext, areOthers]
  rfl

theorem isRead_item {atom : Derivation .atom} {quantifiers : List Quantifier}
    (isRead : atom.IsRead) : (item atom quantifiers).IsRead := by
  intro k rest ends
  have fits : ((atom.depth ≤ k ∧ atom.Fits) ∧ ∀ quantifier ∈ quantifiers, quantifier.Fits) ↔
      (item atom quantifiers).depth ≤ k ∧ (item atom quantifiers).Fits := by
    simp only [depth, Fits, numerals, List.forall_mem_append, Quantifier.Fits,
      List.forall_mem_flatMap]
    tauto
  rw [tokens, List.append_assoc]
  refine .congr fits (.start fun first => (isRead k _).both fun value isAtom => .remaining ?_)
  refine (parses_quantified ends ?_).mono fun read same => ?_
  · rw [List.length_append]
    exact Nat.le_add_right _ _
  · rw [patterns, isAtom, List.map_singleton, same]

theorem isRead_step {id : Numeral} : (step id).IsRead := by
  intro k rest
  have fits : id.Fits ↔ (step id).depth ≤ k ∧ (step id).Fits := by simp [depth, Fits, numerals]
  have read (first : Nat) : Parses id.Fits (do
      let id ← number
      return .step (← Reader.spanFrom first) id true : Production Pattern) (id.tokens ++ rest) rest
      fun value => (step id).patterns = [value.unspanned] := by
    refine parses_number.finish ?_
    rintro _ rfl
    exact .spanFrom fun span => .pure rfl
  refine .congr fits (.start fun first => .peek ?_)
  obtain ⟨negative, digits⟩ := id
  cases negative with
  | true => exact read first
  | false => exact read first

theorem isRead_group {silent : Bool} {inner : Derivation (.list .alternatives)}
    (isRead : inner.IsRead) : (group silent inner).IsRead := by
  intro k rest
  have opened : Parses (inner.depth + 1 ≤ k ∧ inner.Fits) (pattern k)
      (inner.tokens ++ .closeParen :: rest) (.closeParen :: rest)
      fun value => inner.patterns = [value.unspanned] := by
    cases k with
    | zero => exact .congr (by simp) .tooDeep
    | succ k =>
      refine (isRead k _ ?_).congr (by rw [Nat.succ_le_succ_iff])
      rintro token ⟨⟩
      decide
  have shape : (group silent inner).tokens ++ rest =
      (if silent then .openSilent else .openParen) :: (inner.tokens ++ .closeParen :: rest) := by
    simp [tokens]
  rw [shape]
  refine .start fun first => .peek ?_
  cases silent with
  | true =>
    refine .advance (opened.finish fun value isInner => parses_expect (.pure ?_))
    rw [patterns, if_pos rfl, isInner, List.map_singleton, silent_unspanned]
  | false =>
    exact .advance (opened.finish fun value isInner => parses_expect (.pure isInner))

theorem isRead_bracket {negating : Bool} {first : Numeral} {others : List Numeral} :
    (bracket negating first others).IsRead := by
  intro k rest
  have fits : (∀ numeral ∈ first :: others, numeral.Fits) ↔
      (bracket negating first others).depth ≤ k ∧ (bracket negating first others).Fits := by
    simp [depth, Fits, numerals]
  refine .congr fits (.start fun start => .peek ?_)
  have read : Parses (∀ numeral ∈ first :: others, numeral.Fits) (PatternReader.bracket start)
      (bracketPhrase negating first others ++ rest) rest
      fun value => (bracket negating first others).patterns = [value.unspanned] := by
    refine (parses_bracket start).mono ?_
    rintro _ ⟨span, rfl⟩
    rfl
  cases negating with
  | true => exact read
  | false => exact read

theorem isRead (derivation : Derivation symbol) : derivation.IsRead := by
  induction derivation with
  | list op first others isRead areRead => exact isRead_list isRead areRead
  | done op => exact isRead_done
  | more op next others isRead areRead => exact isRead_more isRead areRead
  | item atom quantifiers isRead => exact isRead_item isRead
  | step id => exact isRead_step
  | group silent inner isRead => exact isRead_group isRead
  | bracket negating first others => exact isRead_bracket

end Derivation

/-! ### There is one derivation at most -/

theorem Quantifier.tokens_append_inj {quantifier other : Quantifier}
    (same : quantifier.tokens ++ rest = other.tokens ++ rest') : quantifier = other ∧ rest = rest' := by
  have wordless {numeral : Numeral} {rest more : List PatternToken} :
      .star :: rest ≠ numeral.tokens ++ more := by
    intro same
    exact Numeral.head_ne (by simp) (by simp) (congrArg List.head? same).symm
  cases quantifier <;> cases other <;>
    simp only [tokens, List.cons_append, List.append_assoc, List.cons.injEq, reduceCtorEq, true_and,
      false_and, List.nil_append] at same
  case star.star => exact ⟨rfl, same⟩
  case plus.plus => exact ⟨rfl, same⟩
  case question.question => exact ⟨rfl, same⟩
  case atMost.atMost =>
    obtain ⟨rfl, behind⟩ := Numeral.tokens_append_inj same
    exact ⟨rfl, (List.cons.inj behind).2⟩
  case atMost.exactly => exact absurd same wordless
  case atMost.between => exact absurd same wordless
  case atMost.atLeast => exact absurd same wordless
  case exactly.atMost => exact absurd same.symm wordless
  case between.atMost => exact absurd same.symm wordless
  case atLeast.atMost => exact absurd same.symm wordless
  -- the others start with a number, and differ behind it
  all_goals obtain ⟨rfl, behind⟩ := Numeral.tokens_append_inj same
  case exactly.exactly => exact ⟨rfl, (List.cons.inj behind).2⟩
  case between.between =>
    obtain ⟨rfl, last⟩ := Numeral.tokens_append_inj (List.cons.inj behind).2
    exact ⟨rfl, (List.cons.inj last).2⟩
  case between.atLeast => exact absurd (List.cons.inj behind).2.symm wordless
  case atLeast.between => exact absurd (List.cons.inj behind).2 wordless
  case atLeast.atLeast => simpa using behind
  all_goals simp at behind

theorem ne_quantifier {quantifier : Quantifier} {more : List PatternToken}
    (ends : Nonterminal.Ends .item rest) : rest ≠ quantifier.tokens ++ more := by
  rintro rfl
  cases quantifier <;> exact absurd (ends _ rfl) (by decide)

theorem numeral_ne_bracket (id : Numeral) {negating : Bool} {first : Numeral}
    {others : List Numeral} :
    id.tokens ++ rest ≠ bracketPhrase negating first others ++ rest' := by
  obtain ⟨negative, digits⟩ := id
  cases negative <;> cases negating <;> simp [Numeral.tokens, bracketPhrase]

theorem Derivation.tokens_append_inj {derivation other : Derivation symbol}
    (ends : symbol.Ends rest) (ends' : symbol.Ends rest')
    (same : derivation.tokens ++ rest = other.tokens ++ rest') : derivation = other ∧ rest = rest' := by
  induction derivation generalizing rest rest' with
  | list op first others ihFirst ihOthers =>
    cases other with
    | list _ first' others' =>
      have behind {rest : List PatternToken} (ends : Nonterminal.Ends (.list op) rest) :
          Nonterminal.Ends (.more op) rest := by cases op <;> exact ends
      rw [tokens, tokens, List.append_assoc, List.append_assoc] at same
      obtain ⟨rfl, left⟩ := ihFirst (ends_part others (behind ends)) (ends_part others' (behind ends')) same
      obtain ⟨rfl, rfl⟩ := ihOthers (behind ends) (behind ends') left
      exact ⟨rfl, rfl⟩
  | done op =>
    cases other with
    | done => exact ⟨rfl, same⟩
    | more _ next others => exact absurd (congrArg List.head? same) (ends.head_ne (separatorToken_mem op).2)
  | more op next others ihNext ihOthers =>
    cases other with
    | done => exact absurd (congrArg List.head? same.symm) (ends'.head_ne (separatorToken_mem op).2)
    | more _ next' others' =>
      rw [tokens, tokens, List.cons_append, List.cons_append, List.append_assoc, List.append_assoc,
        List.cons.injEq] at same
      obtain ⟨rfl, left⟩ := ihNext (ends_part others ends) (ends_part others' ends') same.2
      obtain ⟨rfl, rfl⟩ := ihOthers ends ends' left
      exact ⟨rfl, rfl⟩
  | item atom quantifiers ih =>
    cases other with
    | item atom' quantifiers' =>
      have any {rest : List PatternToken} : Nonterminal.Ends .atom rest := fun _ _ => List.not_mem_nil
      rw [tokens, tokens, List.append_assoc, List.append_assoc] at same
      obtain ⟨rfl, left⟩ := ih any any same
      obtain ⟨rfl, rfl⟩ := flatMap_append_inj (fun _ _ _ _ => Quantifier.tokens_append_inj)
        (fun _ _ => ne_quantifier ends) (fun _ _ => ne_quantifier ends') left
      exact ⟨rfl, rfl⟩
  | step id =>
    cases other with
    | step id' =>
      obtain ⟨rfl, rfl⟩ := Numeral.tokens_append_inj same
      exact ⟨rfl, rfl⟩
    | group silent inner =>
      refine absurd (congrArg List.head? same) (Numeral.head_ne ?_ ?_) <;> cases silent <;> simp
    | bracket negating first others =>
      exact absurd same (numeral_ne_bracket id)
  | group silent inner ih =>
    cases other with
    | step id' =>
      refine absurd (congrArg List.head? same.symm) (Numeral.head_ne ?_ ?_) <;> cases silent <;> simp
    | group silent' inner' =>
      have closed {rest : List PatternToken} :
          Nonterminal.Ends (.list .alternatives) (.closeParen :: rest) := by
        rintro token ⟨⟩
        decide
      simp only [tokens, List.cons_append, List.append_assoc, List.nil_append, List.cons.injEq] at same
      obtain ⟨rfl, behind⟩ := ih closed closed same.2
      obtain rfl : silent = silent' := by
        have first := same.1
        cases silent <;> cases silent' <;> simp_all
      exact ⟨rfl, (List.cons.inj behind).2⟩
    | bracket negating first others =>
      cases silent <;> cases negating <;> simp [tokens, bracketPhrase] at same
  | bracket negating first others =>
    cases other with
    | step id' => exact absurd same.symm (numeral_ne_bracket id')
    | group silent inner => cases silent <;> cases negating <;> simp [tokens, bracketPhrase] at same
    | bracket negating' first' others' =>
      obtain ⟨rfl, rfl, rfl, rfl⟩ := bracketPhrase_append_inj same
      exact ⟨rfl, rfl⟩

/-! ### What is read has a derivation -/

/-- What was read up to the second cursor has a derivation. -/
def Derived (symbol : Nonterminal) (cursor cursor' : Cursor PatternToken) : Prop :=
  ∃ derivation : Derivation symbol, Took cursor derivation.tokens cursor'

variable {cursor : Cursor PatternToken} {production : Production Pattern}

theorem leads_quantified {first rounds : Nat} {value : Pattern} :
    Leads cursor (quantified first rounds value) fun _ cursor' =>
      ∃ quantifiers : List Quantifier, Took cursor (quantifiers.flatMap Quantifier.tokens) cursor' := by
  induction rounds generalizing cursor value with
  | zero => exact .pure ⟨[], .nothing⟩
  | succ rounds ih =>
    refine leads_quantifier.bind fun found cursor₁ taken => ?_
    split
    · obtain rfl : cursor₁ = cursor := by simpa using taken
      exact .pure ⟨[], .nothing⟩
    · obtain ⟨quantifier, took⟩ : ∃ quantifier : Quantifier, Took cursor quantifier.tokens cursor₁ := by
        simpa using taken
      refine .spanFrom (ih.mono ?_)
      rintro _ cursor₂ ⟨quantifiers, took'⟩
      exact ⟨quantifier :: quantifiers, took.append took'⟩

theorem leads_atom
    (inner : ∀ cursor, Leads cursor production fun _ cursor' =>
      Derived (.list .alternatives) cursor cursor') :
    Leads cursor (atom production) fun _ cursor' => Derived .atom cursor cursor' := by
  have group (silent : Bool) (change : Pattern → Pattern) {cursor₁ : Cursor PatternToken}
      (opened : Took cursor [if silent then .openSilent else .openParen] cursor₁) : Leads cursor₁ (do
        let inner ← production
        expect .closeParen "`)`"
        return change inner : Production Pattern) fun _ cursor' => Derived .atom cursor cursor' := by
    refine (inner cursor₁).bind fun value cursor₂ ⟨derivation, took⟩ => ?_
    refine leads_expect.bind fun _ cursor₃ took' => .pure ⟨.group silent derivation, ?_⟩
    exact opened.append (took.append took')
  have step {first : Nat} : Leads cursor (do
      let id ← number
      return .step (← Reader.spanFrom first) id true : Production Pattern)
      fun _ cursor' => Derived .atom cursor cursor' :=
    leads_number.bind fun id cursor₁ ⟨numeral, took⟩ => .spanFrom (.pure ⟨.step numeral, took⟩)
  have bracket {first : Nat} :
      Leads cursor (PatternReader.bracket first) fun _ cursor' => Derived .atom cursor cursor' :=
    leads_bracket.mono fun _ cursor₁ ⟨negating, first, others, took⟩ =>
      ⟨.bracket negating first others, took⟩
  refine .start (.peek ?_)
  split
  · rename_i found
    exact .advance found fun placed others shape same => group true Pattern.silent (.token shape same)
  · rename_i found
    exact .advance found fun placed others shape same =>
      group false id (.token shape same)
  · exact bracket
  · exact bracket
  · exact step
  · exact step
  · exact leads_unexpected

theorem leads_item
    (inner : ∀ cursor, Leads cursor production fun _ cursor' =>
      Derived (.list .alternatives) cursor cursor') :
    Leads cursor (item production) fun _ cursor' => Derived .item cursor cursor' := by
  refine .start ((leads_atom inner).bind fun value cursor₁ ⟨atom, took⟩ => .remaining ?_)
  refine leads_quantified.mono ?_
  rintro _ cursor₂ ⟨quantifiers, took'⟩
  exact ⟨.item atom quantifiers, took.append took'⟩

section Lists

variable (part : ∀ cursor, Leads cursor production fun _ cursor' => Derived (.part op) cursor cursor')

include part

theorem leads_itemsRest {rounds : Nat} :
    Leads cursor (itemsRest (separatorToken op) production rounds) fun _ cursor' =>
      Derived (.more op) cursor cursor' := by
  induction rounds generalizing cursor with
  | zero => exact .pure ⟨.done op, .nothing⟩
  | succ rounds ih =>
    refine leads_skip.bind fun more cursor₁ (took : Took _ _ _) => ?_
    cases more with
    | false => exact .pure ⟨.done op, took⟩
    | true =>
      refine (part cursor₁).bind fun next cursor₂ ⟨derivation, took₂⟩ => ?_
      refine ih.bind fun values cursor₃ ⟨others, took₃⟩ => .pure ⟨.more op derivation others, ?_⟩
      exact took.append (took₂.append took₃)

theorem leads_separated :
    Leads cursor (separated op (separatorToken op) production) fun _ cursor' =>
      Derived (.list op) cursor cursor' := by
  refine .start ((part cursor).bind fun head cursor₁ ⟨first, took⟩ => .remaining ?_)
  refine (leads_itemsRest part).bind fun values cursor₂ ⟨others, took'⟩ => ?_
  have whole : Derived (.list op) cursor cursor₂ := ⟨.list op first others, took.append took'⟩
  split
  · exact .pure whole
  · exact .spanFrom (.pure whole)

end Lists

theorem leads_pattern (levels : Nat) (cursor : Cursor PatternToken) :
    Leads cursor (pattern levels) fun _ cursor' => Derived (.list .alternatives) cursor cursor' := by
  induction levels generalizing cursor with
  | zero => exact .tooDeep
  | succ levels ih =>
    have item (cursor : Cursor PatternToken) : Leads cursor (item (pattern levels)) fun _ cursor' =>
        Derived (.part .sequence) cursor cursor' := leads_item ih
    have sequence (cursor : Cursor PatternToken) :
        Leads cursor (separated .sequence .colon (PatternReader.item (pattern levels))) fun _ cursor' =>
          Derived (.part .alternatives) cursor cursor' := leads_separated item
    exact leads_separated sequence

theorem leads_whole : Leads cursor whole fun _ _ =>
    ∃ derivation : Derivation (.list .alternatives), derivation.tokens = cursor.tokens := by
  refine (leads_pattern nestingLimit cursor).bind fun value cursor' ⟨derivation, took⟩ => .peek ?_
  cases left : cursor'.tokens with
  | nil => exact .pure ⟨derivation, by rw [took, left, List.append_nil]⟩
  | cons => exact leads_unexpected

theorem parses_whole (derivation : Derivation (.list .alternatives)) :
    Parses (derivation.depth < nestingLimit ∧ derivation.Fits) whole derivation.tokens []
      fun value => derivation.patterns = [value.unspanned] := by
  have nothing : Nonterminal.Ends (.list .alternatives) [] := by
    rintro token ⟨⟩
  have read := derivation.isRead 255 [] nothing
  rw [List.append_nil] at read
  refine .congr (by rw [nestingLimit, Nat.lt_succ_iff]) (Parses.finish read fun value isRead => ?_)
  exact .peek (.pure isRead)

/-! ### Numbers of a text -/

/-- The numbers among the tokens, each with the sign in front of it. -/
def signedNumerals : List PatternToken → List Numeral
  | .minus :: .number digits :: rest => ⟨true, digits⟩ :: signedNumerals rest
  | .number digits :: rest => ⟨false, digits⟩ :: signedNumerals rest
  | _ :: rest => signedNumerals rest
  | [] => []

theorem signedNumerals_numeral (numeral : Numeral) :
    signedNumerals (numeral.tokens ++ rest) = numeral :: signedNumerals rest := by
  obtain ⟨negative, digits⟩ := numeral
  cases negative <;> simp [Numeral.tokens, signedNumerals]

theorem signedNumerals_quantifier (quantifier : Quantifier) :
    signedNumerals (quantifier.tokens ++ rest) = quantifier.numerals ++ signedNumerals rest := by
  cases quantifier <;>
    simp [Quantifier.tokens, Quantifier.numerals, signedNumerals, signedNumerals_numeral]

theorem signedNumerals_flatMap {α : Type} {write : α → List PatternToken}
    {numerals : α → List Numeral}
    (each : ∀ item rest, signedNumerals (write item ++ rest) = numerals item ++ signedNumerals rest)
    (items : List α) :
    signedNumerals (items.flatMap write ++ rest) = items.flatMap numerals ++ signedNumerals rest := by
  induction items with
  | nil => rfl
  | cons item items ih => rw [List.flatMap_cons, List.append_assoc, each, ih, List.flatMap_cons,
      List.append_assoc]

theorem signedNumerals_derivation (derivation : Derivation symbol) (rest : List PatternToken) :
    signedNumerals (derivation.tokens ++ rest) = derivation.numerals ++ signedNumerals rest := by
  induction derivation generalizing rest with
  | list op first others ihFirst ihOthers =>
    rw [Derivation.tokens, Derivation.numerals, List.append_assoc, ihFirst, ihOthers, List.append_assoc]
  | done op => rfl
  | more op next others ihNext ihOthers =>
    have separator (rest : List PatternToken) :
        signedNumerals (separatorToken op :: rest) = signedNumerals rest := by
      cases op <;> simp [separatorToken, signedNumerals]
    rw [Derivation.tokens, Derivation.numerals, List.cons_append, separator, List.append_assoc, ihNext,
      ihOthers, List.append_assoc]
  | item atom quantifiers ih =>
    rw [Derivation.tokens, Derivation.numerals, List.append_assoc, ih,
      signedNumerals_flatMap fun quantifier _ => signedNumerals_quantifier quantifier, List.append_assoc]
  | step id => exact signedNumerals_numeral id
  | group silent inner ih =>
    cases silent <;> simp [Derivation.tokens, Derivation.numerals, signedNumerals, ih]
  | bracket negating first others =>
    have each : signedNumerals (others.flatMap Numeral.tokens ++ .closeBracket :: rest) =
        others.flatMap ([·]) ++ signedNumerals (.closeBracket :: rest) :=
      signedNumerals_flatMap (fun numeral _ => signedNumerals_numeral numeral) others
    cases negating <;>
      simp [Derivation.tokens, Derivation.numerals, bracketPhrase, signedNumerals,
        signedNumerals_numeral, each]

end EventQuery.Reading.PatternReader

namespace EventQuery

open Reading Reading.PatternReader

/-- The tokens of the text of a pattern. -/
def patternTokens (text : String) : Except ReadError (List (Placed PatternToken)) :=
  scan lexeme (fun piece => "unexpected character " ++ Text.Printable.quoted piece ++ " in pattern") text

/-- A text is read as a pattern exactly if its tokens have a derivation whose groups are not nested
too deep, and its numbers with their signs fit. There is one derivation at most, and what is read
is what the derivation stands for. -/
theorem readPattern_derivation {text : String} {placed : List (Placed PatternToken)}
    (scans : patternTokens text = .ok placed) :
    ((∃ pattern, readPattern text = .ok pattern) ↔
      (∃ derivation : Derivation (.list .alternatives),
        derivation.tokens = placed.map Placed.token ∧ derivation.depth < nestingLimit) ∧
      ∀ numeral ∈ signedNumerals (placed.map Placed.token), numeral.Fits) ∧
    (∀ derivation other : Derivation (.list .alternatives),
      derivation.tokens = placed.map Placed.token → other.tokens = placed.map Placed.token →
        derivation = other) ∧
    ∀ pattern (derivation : Derivation (.list .alternatives)), readPattern text = .ok pattern →
      derivation.tokens = placed.map Placed.token → derivation.patterns = [pattern.unspanned] := by
  have unfolded : readPattern text = whole.run placed text.utf8ByteSize :=
    congrArg (· >>= fun placed => whole.run placed text.utf8ByteSize) scans
  have numbers {derivation : Derivation (.list .alternatives)}
      (same : derivation.tokens = placed.map Placed.token) :
      derivation.numerals = signedNumerals (placed.map Placed.token) := by
    have all := signedNumerals_derivation derivation []
    rw [List.append_nil, same, signedNumerals, List.append_nil] at all
    exact all.symm
  have only {pattern : Pattern} {derivation : Derivation (.list .alternatives)}
      (reads : readPattern text = .ok pattern) (same : derivation.tokens = placed.map Placed.token) :
      (derivation.depth < nestingLimit ∧ derivation.Fits) ∧ derivation.patterns = [pattern.unspanned] := by
    obtain ⟨succeeds, fails⟩ := (parses_whole derivation).run same.symm
    by_cases fits : derivation.depth < nestingLimit ∧ derivation.Fits
    · obtain ⟨value, runs, isRead⟩ := succeeds fits
      obtain rfl : value = pattern := Except.ok.inj (runs.symm.trans (unfolded.symm.trans reads))
      exact ⟨fits, isRead⟩
    · obtain ⟨cause, runs⟩ := fails fits
      cases runs.symm.trans (unfolded.symm.trans reads)
  refine ⟨⟨?_, ?_⟩, ?_, fun pattern derivation reads same => (only reads same).2⟩
  · rintro ⟨pattern, reads⟩
    obtain ⟨⟨value, cursor'⟩, runs, -⟩ := Outcome.map_eq_ok.1 (unfolded.symm.trans reads)
    obtain ⟨derivation, same⟩ := leads_whole value cursor' runs
    obtain ⟨⟨shallow, fits⟩, -⟩ := only reads same
    exact ⟨⟨derivation, same, shallow⟩, numbers same ▸ fits⟩
  · rintro ⟨⟨derivation, same, shallow⟩, fits⟩
    have fits : derivation.Fits := by rwa [Derivation.Fits, numbers same]
    obtain ⟨value, runs, -⟩ := ((parses_whole derivation).run same.symm).1 ⟨shallow, fits⟩
    exact ⟨value, unfolded.trans runs⟩
  · have nothing : Nonterminal.Ends (.list .alternatives) [] := by
      rintro token ⟨⟩
    intro derivation other same same'
    exact (Derivation.tokens_append_inj nothing nothing (by rw [same, same'])).1

/-- Two quantifiers behind a silent group of two steps. -/
theorem readPattern_derivation_group :
    let text := "1:(?:-2 | 3)\x7b2\x7d+"
    let step (negative : Bool) (digits : String) : Derivation (.list .sequence) :=
      .list .sequence (.item (.step ⟨negative, digits⟩) []) (.done .sequence)
    let inner : Derivation (.list .alternatives) :=
      .list .alternatives (step true "2") (.more .alternatives (step false "3") (.done .alternatives))
    let derivation : Derivation (.list .alternatives) :=
      .list .alternatives (.list .sequence (.item (.step ⟨false, "1"⟩) [])
        (.more .sequence (.item (.group true inner) [.exactly ⟨false, "2"⟩, .plus]) (.done .sequence)))
        (.done .alternatives)
    ∃ placed, patternTokens text = .ok placed ∧
      (∀ other : Derivation (.list .alternatives), other.tokens = placed.map Placed.token →
        derivation = other) ∧
      ∃ pattern, readPattern text = .ok pattern ∧
        pattern.unspanned = .ofList .sequence [.ofStep 1, .repetition .none 1 none
          (.repetition .none 2 (some 2) (.list .none .alternatives
            [.step .none (-2) false, .step .none 3 false] false) false) false] := by
  intro text step inner derivation
  have scanned : (patternTokens text).map (List.map Placed.token) = .ok derivation.tokens := by
    decide +kernel
  obtain ⟨placed, scans, same⟩ := Outcome.map_eq_ok.1 scanned
  obtain ⟨reads, single, means⟩ := readPattern_derivation scans
  have fits : ∀ numeral ∈ signedNumerals derivation.tokens, numeral.Fits := by decide +kernel
  obtain ⟨pattern, read⟩ := reads.2 ⟨⟨derivation, same.symm, by decide⟩, same ▸ fits⟩
  have pattern_eq := means pattern derivation read same.symm
  exact ⟨placed, scans, fun other => single derivation other same.symm, pattern, read,
    (List.singleton_inj.1 pattern_eq).symm⟩

end EventQuery
