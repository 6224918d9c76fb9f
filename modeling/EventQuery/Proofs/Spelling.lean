import EventQuery.Proofs.CallReading

/-!
The reader gives expressions that have a text of their own: names come from words, and truth
values are no values in the place of a predicate.
-/
namespace EventQuery.Reading

/-! ### Words of a text -/

/-- Words and the names of parameters are written as words. -/
def Token.Proper : Token → Prop
  | .word text => IsWord text
  | .parameter name => IsWord name
  | _ => True

theorem isWord_ofList {first : Char} {rest : List Char} (starts : isWordStart first = true) :
    IsWord (String.ofList (first :: rest.takeWhile isWordPart)) := by
  simp only [IsWord, String.toList_ofList]
  exact ⟨starts, List.all_takeWhile⟩

theorem proper_of_lexeme {c : Char} {rest : List Char} {token : Token} {more : Nat}
    (taken : lexeme c rest = .token token more) : token.Proper := by
  unfold lexeme at taken
  split at taken
  case h_16 =>
    unfold stringLexeme at taken
    split at taken <;> cases taken
    trivial
  case h_17 =>
    split_ifs at taken with starts
    cases taken
    exact isWord_ofList starts
  case h_18 =>
    split_ifs at taken with starts digit
    · cases taken
      exact isWord_ofList starts
    · unfold numberLexeme at taken
      simp only [Lexeme.token.injEq] at taken
      rw [← taken.1]
      split_ifs <;> trivial
  all_goals
    cases taken
    trivial

namespace ExpressionReader

variable {α : Type} {P : α → Prop} {proper : Token → Prop}

/-! ### Steps -/

/-- On words that are words, every success of the production meets the condition. -/
abbrev Yields (production : Production α) (P : α → Prop) : Prop := Gives Token.Proper production P

theorem yields_unexpected {expected : String} : Yields (unexpected expected : Production α) P :=
  Gives.peek.bind fun _ _ => Gives.place.bind fun _ _ => .fail

theorem yields_expect {token : Token} : Yields (expect token) fun _ => True := by
  refine Gives.skip.bind fun taken _ => ?_
  cases taken
  · exact yields_unexpected
  · exact .pure trivial

theorem yields_expectWord {word : String} : Yields (expectWord word) fun _ => True := by
  refine Gives.skip.bind fun taken _ => ?_
  cases taken
  · exact yields_unexpected
  · exact .pure trivial

theorem yields_nextIsWord {word : String} : Yields (nextIsWord word) fun _ => True :=
  Gives.peek.bind fun _ _ => .pure trivial

theorem yields_name : Yields name IsWord := by
  refine Gives.peek.bind fun found propers => ?_
  split
  · exact Gives.advance.bind fun _ _ => .pure (propers _ rfl)
  · exact yields_unexpected

/-- The second name goes on where the first one ends. -/
def Extends (read name : String) : Prop :=
  ∃ words, (∀ word ∈ words, IsWord word) ∧ name = ".".intercalate (read :: words)

theorem yields_dottedNameRest {rounds : Nat} {read : String} :
    Yields (dottedNameRest rounds read) (Extends read) := by
  have ends (read : String) : Extends read read :=
    ⟨[], List.forall_mem_nil _, by rw [String.intercalate_singleton]⟩
  induction rounds generalizing read with
  | zero => exact .pure (ends read)
  | succ rounds ih =>
    refine Gives.skip.bind fun taken _ => ?_
    cases taken
    · exact .pure (ends read)
    · refine yields_name.bind fun word isWord => ih.mono fun name => ?_
      rintro ⟨words, each, rfl⟩
      refine ⟨word :: words, List.forall_mem_cons.2 ⟨isWord, each⟩, ?_⟩
      rw [String.intercalate_cons_append, String.intercalate_cons_cons]

theorem yields_dottedName : Yields dottedName IsName := by
  refine yields_name.bind fun first isWord => Gives.remaining.bind fun _ _ => ?_
  refine yields_dottedNameRest.mono fun name => ?_
  rintro ⟨words, each, rfl⟩
  exact ⟨first :: words, List.cons_ne_nil _ _, List.forall_mem_cons.2 ⟨isWord, each⟩, rfl⟩

/-! ### Predicates and values -/

theorem spelled_asPredicate {expr : Expr} (spelled : expr.Spelled) :
    (Expr.bool (asPredicate expr)).Spelled := by
  unfold asPredicate
  split
  · exact spelled
  · exact .truth
  · rename_i open'
    refine .wrapper spelled fun span truth => ?_
    rintro rfl
    exact open' span truth rfl

theorem spelled_asValue {expr : Expr} {node : ValueExpr} (spelled : expr.Spelled)
    (found : asValue expr = .ok node) : (Expr.value node).Spelled := by
  unfold asValue at found
  split at found
  · cases found
    exact spelled
  · cases found
    exact .constant
  · cases found
    cases spelled
    assumption
  · cases found

theorem yields_toValue {expr : Expr} (spelled : expr.Spelled) :
    Yields (toValue expr) fun node => (Expr.value node).Spelled :=
  .lift fun _ found => spelled_asValue spelled found

/-- The productions one level deeper give expressions with a text. -/
structure Deeper.Sound (deeper : Deeper) : Prop where
  expression : Yields deeper.expression Expr.Spelled
  negation : Yields deeper.negation Expr.Spelled
  signed : Yields deeper.signed Expr.Spelled

variable {deeper : Deeper}

theorem Deeper.Sound.value (sound : deeper.Sound) :
    Yields deeper.value fun node => (Expr.value node).Spelled :=
  sound.expression.bind fun _ spelled => yields_toValue spelled

theorem Deeper.Sound.predicate (sound : deeper.Sound) :
    Yields deeper.predicate fun node => (Expr.bool node).Spelled :=
  sound.expression.bind fun _ spelled => .pure (spelled_asPredicate spelled)

theorem yields_valuesRest (sound : deeper.Sound) {rounds : Nat} :
    Yields (valuesRest deeper rounds) fun nodes => ∀ node ∈ nodes, (Expr.value node).Spelled := by
  induction rounds with
  | zero => exact yields_unexpected
  | succ rounds ih =>
    refine sound.value.bind fun first spelled => Gives.skip.bind fun closes _ => ?_
    cases closes
    · refine Gives.skip.bind fun another _ => ?_
      cases another
      · exact yields_unexpected
      · exact ih.bind fun others each => .pure (List.forall_mem_cons.2 ⟨spelled, each⟩)
    · exact .pure (List.forall_mem_singleton.2 spelled)

theorem yields_values (sound : deeper.Sound) :
    Yields (values deeper) fun nodes => ∀ node ∈ nodes, (Expr.value node).Spelled := by
  refine Gives.skip.bind fun closes _ => ?_
  cases closes
  · exact Gives.remaining.bind fun _ _ => yields_valuesRest sound
  · exact .pure (List.forall_mem_nil _)

/-! ### Operators that are written as calls -/

theorem yields_numberConstant {text : String} {negative : Bool} {span : Span} :
    Yields (numberConstant text negative span) fun _ => True := by
  unfold numberConstant
  dsimp only
  split
  · split
    · exact .pure trivial
    · exact .fail
  · split
    · exact .pure trivial
    · exact .fail

theorem yields_conversion (sound : deeper.Sound) {kind : Conversion} {first : Nat} :
    Yields (conversion deeper kind first) fun node => (Expr.value node).Spelled :=
  Gives.advance.bind fun _ _ => yields_expect.bind fun _ _ => sound.value.bind fun _ spelled =>
    yields_expect.bind fun _ _ => Gives.spanFrom.bind fun _ _ => .pure (.conversion spelled)

theorem spelled_castNode {span : Span} {target : DataType} {operand : ValueExpr}
    (spelled : (Expr.value operand).Spelled) : (Expr.value (castNode span target operand)).Spelled := by
  unfold castNode
  split
  · split
    · split
      · exact .constant
      · exact .cast spelled
    · exact .cast spelled
  · exact .cast spelled

theorem yields_cast (sound : deeper.Sound) {first : Nat} :
    Yields (cast deeper first) fun node => (Expr.value node).Spelled := by
  refine Gives.advance.bind fun _ _ => yields_expect.bind fun _ _ => sound.value.bind fun _ spelled => ?_
  refine yields_expectWord.bind fun _ _ => Gives.place.bind fun _ _ => yields_name.bind fun _ _ => ?_
  split
  · exact yields_expect.bind fun _ _ => Gives.spanFrom.bind fun _ _ => .pure (spelled_castNode spelled)
  · exact .fail

theorem yields_zoneName : Yields zoneName fun _ => True := by
  refine Gives.peek.bind fun found _ => ?_
  split
  · exact Gives.advance.bind fun _ _ => .pure trivial
  · exact yields_unexpected

theorem yields_quantum (sound : deeper.Sound) {keyword : String} {first : Nat} :
    Yields (quantum deeper keyword first) fun node => (Expr.value node).Spelled := by
  refine Gives.advance.bind fun _ _ => yields_expect.bind fun _ _ => Gives.place.bind fun _ _ => ?_
  refine yields_name.bind fun _ _ => ?_
  split
  · refine yields_expect.bind fun _ _ => sound.value.bind fun _ spelled => Gives.skip.bind fun zoned _ => ?_
    have ends (zone : Option String) {taken : Quantum} {operand : ValueExpr}
        (spelled : (Expr.value operand).Spelled) : Yields (do
          expect .closeParen
          return .quantum (← Reader.spanFrom first) taken operand zone none : Production ValueExpr)
        fun node => (Expr.value node).Spelled :=
      yields_expect.bind fun _ _ => Gives.spanFrom.bind fun _ _ => .pure (.quantum spelled)
    cases zoned
    · exact Gives.bind (P := fun _ => True) (.pure trivial) fun zone _ => ends zone spelled
    · exact (yields_zoneName.map (Q := fun _ => True) fun _ _ => trivial).bind fun zone _ => ends zone spelled
  · exact .fail

theorem yields_boundary {edge : Edge} {first : Nat} :
    Yields (boundary edge first) fun node => (Expr.bool node).Spelled :=
  Gives.advance.bind fun _ _ => yields_expect.bind fun _ _ => yields_dottedName.bind fun _ named =>
    yields_expect.bind fun _ _ => Gives.spanFrom.bind fun _ _ => .pure (.boundary named)

theorem yields_stepReference {first : Nat} :
    Yields (stepReference first) fun node => (Expr.bool node).Spelled := by
  refine Gives.advance.bind fun _ _ => yields_expect.bind fun _ _ => Gives.skip.bind fun _ _ => ?_
  refine Gives.place.bind fun span _ => Gives.peek.bind fun found _ => ?_
  have ends (step : Int64) : Yields (do
      expect .closeParen
      return .stepReference (← Reader.spanFrom first) step : Production BoolExpr)
      fun node => (Expr.bool node).Spelled :=
    yields_expect.bind fun _ _ => Gives.spanFrom.bind fun _ _ => .pure .stepReference
  split
  · refine Gives.advance.bind fun _ _ => yields_numberConstant.bind fun constant _ => ?_
    split
    · exact Gives.bind (P := fun _ => True) (.pure trivial) fun step _ => ends step
    · exact Gives.bind (P := fun _ => True) .fail fun step _ => ends step
  · exact yields_unexpected.bind (P := fun _ => True) fun step _ => ends step

theorem yields_clause {keyword : String} {body : Production α} (yields : Yields body P) :
    Yields (clause keyword body) fun part => ∀ found, part = some found → P found := by
  refine Gives.skip.bind fun present _ => ?_
  cases present
  · exact .pure (by rintro _ ⟨⟩)
  · refine yields.map fun value holds => ?_
    rintro _ ⟨⟩
    exact holds

theorem yields_aggregation (sound : deeper.Sound) {op : AggregationOp} {first : Nat} :
    Yields (aggregation deeper op first) fun node => (Expr.value node).Spelled := by
  have ends (count : Option ValueExpr) (top : count.isSome = (op == AggregationOp.top))
      (counted : ∀ node, count = some node → (Expr.value node).Spelled) : Yields (do
        let target ← deeper.value
        let condition ← clause "WHERE" deeper.predicate
        let scope ← clause "SCOPE" dottedName
        let quanta ← clause "QUANTA" deeper.value
        expect .closeParen
        return .aggregation (← Reader.spanFrom first) op count target condition scope quanta none :
          Production ValueExpr) fun node => (Expr.value node).Spelled :=
    sound.value.bind fun _ only => (yields_clause sound.predicate).bind fun _ met =>
      (yields_clause yields_dottedName).bind fun _ named => (yields_clause sound.value).bind
        fun _ lasting => yields_expect.bind fun _ _ => Gives.spanFrom.bind fun _ _ =>
          .pure (.aggregation top counted only met named lasting)
  have topCount : Yields (topCount deeper) fun node => (Expr.value node).Spelled :=
    sound.value.bind fun _ spelled => yields_expect.bind fun _ _ => .pure spelled
  refine Gives.advance.bind fun _ _ => yields_expect.bind fun _ _ => ?_
  by_cases isTop : op = .top
  · rw [if_pos isTop]
    refine (topCount.map (Q := fun count => ∃ node, count = some node ∧ (Expr.value node).Spelled)
      fun node spelled => ⟨node, rfl, spelled⟩).bind ?_
    rintro _ ⟨node, rfl, spelled⟩
    exact ends _ (by simp [isTop]) (by rintro _ ⟨⟩; exact spelled)
  · rw [if_neg isTop]
    refine Gives.bind (P := (· = none)) (.pure rfl) ?_
    rintro _ rfl
    exact ends _ (by simp [isTop]) (by rintro _ ⟨⟩)

theorem yields_now {first : Nat} : Yields (now first) fun node => (Expr.value node).Spelled :=
  Gives.advance.bind fun _ _ => yields_expect.bind fun _ _ => yields_expect.bind fun _ _ =>
    Gives.spanFrom.bind fun _ _ => .pure .now

theorem yields_literal {value : Constant} :
    Yields (literal value) fun node => (Expr.value node).Spelled :=
  Gives.place.bind fun _ _ => Gives.advance.bind fun _ _ => .pure .constant

/-! ### Names and calls -/

theorem isName_of_word {word : String} (isWord : IsWord word) : IsName word :=
  ⟨[word], List.cons_ne_nil _ _, List.forall_mem_singleton.2 isWord,
    by rw [String.intercalate_singleton]⟩

/-- A name of several words is no operator. -/
theorem free_of_dot {name : String} (dotted : '.' ∈ name.toList) : name ∉ operatorWords := by
  have plain : ∀ keyword ∈ operatorWords, '.' ∉ keyword.toList := by decide
  exact fun listed => plain name listed dotted

/-- Behind a word with a point stands a name of several words. -/
theorem yields_dottedName_dot {word : String} {more : List Token} :
    GivesOn Token.Proper (.word word :: .dot :: more) dottedName fun name =>
      IsName name ∧ (nameWords name).head? = some word ∧ '.' ∈ name.toList := by
  refine .assuming fun propers => .bind reads_name (by simp) ?_
  rintro first rfl
  have isFirst : IsWord first := propers _ List.mem_cons_self
  refine .remaining (.bind (show Reads (Reader.skip .dot) _ more _ from Parses.taken) (by simp) ?_)
  rintro _ rfl
  refine .of_gives (yields_name.bind fun second isSecond => yields_dottedNameRest.mono fun name => ?_)
  rintro ⟨words, each, rfl⟩
  have all : ∀ found ∈ first :: second :: words, IsWord found :=
    List.forall_mem_cons.2 ⟨isFirst, List.forall_mem_cons.2 ⟨isSecond, each⟩⟩
  have shape : ".".intercalate ((first ++ "." ++ second) :: words) =
      ".".intercalate (first :: second :: words) := by
    rw [String.intercalate_cons_append, String.intercalate_cons_cons]
  rw [shape]
  refine ⟨⟨_, List.cons_ne_nil _ _, all, rfl⟩, ?_, ?_⟩
  · rw [nameWords_intercalate (List.cons_ne_nil _ _) fun word listed => (all word listed).dotless,
      List.head?_cons]
  · rw [String.intercalate_cons_cons]
    simp

theorem yields_call (sound : deeper.Sound) {name : String} {first : Nat}
    (named : IsName name) (starts : Starts name) (free : name ∉ operatorWords) :
    Yields (do
        let arguments ← values deeper
        return .call (← Reader.spanFrom first) name arguments none : Production ValueExpr)
      fun node => (Expr.value node).Spelled :=
  (yields_values sound).bind fun _ each => Gives.spanFrom.bind fun _ _ =>
    .pure (.call named starts free each)

theorem starts_of_head {name word : String} (head : (nameWords name).head? = some word)
    (starts : isReserved word = false) : Starts name := by
  intro found isHead
  rw [head] at isHead
  exact Option.some.inj isHead ▸ starts

theorem yields_pathOrCall (sound : deeper.Sound) {word : String} {more : List Token} {first : Nat}
    (starts : isReserved word = false)
    (free : more.head? = some .openParen → word ∉ operatorWords) :
    GivesOn Token.Proper (.word word :: more) (pathOrCall deeper first)
      fun node => (Expr.value node).Spelled := by
  refine .assuming fun propers => ?_
  have isWord : IsWord word := propers _ List.mem_cons_self
  by_cases dotted : more.head? = some .dot
  · obtain ⟨others, rfl⟩ := List.head?_eq_some_iff.1 dotted
    refine yields_dottedName_dot.andThen ?_
    rintro name ⟨named, head, several⟩
    refine Gives.spanFrom.bind fun span _ => Gives.skip.bind fun opens _ => ?_
    cases opens
    · exact .pure (.path named (starts_of_head head starts))
    · exact yields_call sound named (starts_of_head head starts) (free_of_dot several)
  · have reads : Reads dottedName (.word word :: more) more (· = word) := by
      have read : Reads dottedName (nameTokens word ++ more) more (· = word) := reads_dottedName dotted
      rwa [nameTokens, nameWords_single isWord.dotless] at read
    have head : (nameWords word).head? = some word := by rw [nameWords_single isWord.dotless, List.head?_cons]
    refine .bind reads (by simp) ?_
    rintro read rfl
    refine .spanFrom fun span => .skip (fun opens => ?_) fun _ => ?_
    · exact yields_call sound (isName_of_word isWord) (starts_of_head head starts) (free opens)
    · exact .pure (.path (isName_of_word isWord) (starts_of_head head starts))

/-! ### Productions -/

theorem yields_called (sound : deeper.Sound) {word : String} {more : List Token} {first : Nat}
    (starts : isReserved word = false) :
    GivesOn Token.Proper (.word word :: more) (called deeper word first) Expr.Spelled := by
  unfold called
  split
  · exact .of_gives (yields_now.bind fun _ spelled => .pure spelled)
  · exact .of_gives ((yields_cast sound).bind fun _ spelled => .pure spelled)
  · exact .of_gives ((yields_quantum sound).bind fun _ spelled => .pure spelled)
  · exact .of_gives ((yields_quantum sound).bind fun _ spelled => .pure spelled)
  · exact .of_gives (yields_boundary.bind fun _ spelled => .pure spelled)
  · exact .of_gives (yields_boundary.bind fun _ spelled => .pure spelled)
  · exact .of_gives (yields_stepReference.bind fun _ spelled => .pure spelled)
  · rename_i notNow notCast notTruncate notExtract notStart notEnd notStep
    split
    · exact .of_gives ((yields_aggregation sound).bind fun _ spelled => .pure spelled)
    · rename_i noAggregate
      split
      · exact .of_gives ((yields_conversion sound).bind fun _ spelled => .pure spelled)
      · rename_i noConversion
        refine (yields_pathOrCall sound starts fun _ listed => ?_).andThen fun _ spelled => .pure spelled
        simp only [operatorWords, List.mem_append, List.mem_cons, List.not_mem_nil, or_false,
          List.mem_map] at listed
        rcases listed with (special | ⟨op, known, rfl⟩) | ⟨kind, known, rfl⟩
        · simp_all
        · exact absurd (beq_self_eq_true _) (List.find?_eq_none.1 noAggregate op known)
        · exact absurd (beq_self_eq_true _) (List.find?_eq_none.1 noConversion kind known)

theorem yields_keywordOrName (sound : deeper.Sound) {word : String} {more : List Token}
    {first : Nat} (expected : reserved.contains word = false) :
    GivesOn Token.Proper (.word word :: more) (keywordOrName deeper word first) Expr.Spelled := by
  unfold keywordOrName
  split
  · exact .of_gives (yields_literal.bind fun _ spelled => .pure spelled)
  · exact .of_gives (yields_literal.bind fun _ spelled => .pure spelled)
  · exact .of_gives (yields_literal.bind fun _ spelled => .pure spelled)
  · rename_i notTrue notFalse notNull
    have starts : isReserved word = false := by
      rw [isReserved, expected, Bool.false_or]
      simpa using ⟨notTrue, notFalse, notNull⟩
    refine .second ?_
    split_ifs with opens
    · exact yields_called sound starts
    · refine (yields_pathOrCall sound starts fun head => ?_).andThen fun _ spelled => .pure spelled
      rw [List.head?_eq_getElem?] at head
      exact absurd head opens

theorem yields_primary (sound : deeper.Sound) : Yields (primary deeper) Expr.Spelled := by
  refine GivesOn.gives fun before => .place fun span => .peek ?_
  have number {text : String} : Yields (do
      Reader.advance
      return .value (.constant span (← numberConstant text false span)) : Production Expr) Expr.Spelled :=
    Gives.advance.bind fun _ _ => yields_numberConstant.bind fun _ _ => .pure .constant
  split
  · refine .of_gives (Gives.advance.bind fun _ _ => sound.expression.bind fun _ spelled => ?_)
    exact yields_expect.bind fun _ _ => .pure spelled
  · exact .of_gives number
  · exact .of_gives number
  · exact .of_gives (Gives.advance.bind fun _ _ => .pure .constant)
  · rename_i parameter isParameter
    refine .assuming fun propers => .of_gives (Gives.advance.bind fun _ _ => .pure (.parameter ?_))
    exact propers _ (List.mem_of_mem_head? isParameter)
  · rename_i word isWord
    obtain ⟨more, rfl⟩ := List.head?_eq_some_iff.1 isWord
    split_ifs with unexpected
    · exact .of_gives yields_unexpected
    · exact yields_keywordOrName sound (Bool.eq_false_iff.2 unexpected)
  · exact .of_gives yields_unexpected

theorem yields_signed (sound : deeper.Sound) : Yields (signed deeper) Expr.Spelled := by
  refine Gives.start.bind fun first _ => Gives.peek.bind fun found _ => ?_
  dsimp only
  split
  · exact yields_primary sound
  · refine Gives.advance.bind fun _ _ => Gives.peek.bind fun _ _ => ?_
    split
    · refine Gives.advance.bind fun _ _ => Gives.spanFrom.bind fun _ _ => ?_
      exact yields_numberConstant.bind fun _ _ => .pure .constant
    · refine sound.signed.bind fun _ spelled => Gives.spanFrom.bind fun _ _ => ?_
      exact (yields_toValue spelled).bind fun _ operand => .pure (.unary operand)

theorem yields_chain {operand : Production Expr} {op? : Token → Option Arithmetic}
    (yields : Yields operand Expr.Spelled) : Yields (chain operand op?) Expr.Spelled := by
  have rest {rounds first : Nat} {left : Expr} (spelled : left.Spelled) :
      Yields (chainRest operand op? first rounds left) Expr.Spelled := by
    induction rounds generalizing left with
    | zero => exact .pure spelled
    | succ rounds ih =>
      refine Gives.peek.bind fun found _ => ?_
      split
      · exact .pure spelled
      · refine Gives.advance.bind fun _ _ => yields.bind fun _ right => Gives.spanFrom.bind fun _ _ => ?_
        exact (yields_toValue spelled).bind fun _ one => (yields_toValue right).bind fun _ two =>
          ih (.arithmetic one two)
  exact Gives.start.bind fun _ _ => yields.bind fun _ spelled => Gives.remaining.bind fun _ _ =>
    rest spelled

theorem yields_connected {operand : Production Expr} {op : Connective}
    (yields : Yields operand Expr.Spelled) : Yields (connected operand op) Expr.Spelled := by
  have rest {rounds first : Nat} {left : Expr} (spelled : left.Spelled) :
      Yields (connectedRest operand op first rounds left) Expr.Spelled := by
    induction rounds generalizing left with
    | zero => exact .pure spelled
    | succ rounds ih =>
      refine Gives.skip.bind fun taken _ => ?_
      cases taken
      · exact .pure spelled
      · refine yields.bind fun _ right => Gives.spanFrom.bind fun _ _ => ?_
        exact ih (.connective (spelled_asPredicate spelled) (spelled_asPredicate right))
  exact Gives.start.bind fun _ _ => yields.bind fun _ spelled => Gives.remaining.bind fun _ _ =>
    rest spelled

theorem yields_sum (sound : deeper.Sound) : Yields (sum deeper) Expr.Spelled :=
  yields_chain (yields_chain (yields_signed sound))

theorem yields_bounds (sound : deeper.Sound) {op : BoundsOp} {left : Expr} (spelled : left.Spelled)
    {first : Nat} : Yields (bounds deeper op left first) fun node => (Expr.bool node).Spelled := by
  refine (yields_sum sound).bind fun _ lower => yields_expectWord.bind fun _ _ => ?_
  refine (yields_sum sound).bind fun _ upper => Gives.spanFrom.bind fun _ _ => ?_
  exact (yields_toValue spelled).bind fun _ one => (yields_toValue lower).bind fun _ two =>
    (yields_toValue upper).bind fun _ three => .pure (.bounds one two three)

theorem yields_nullTest {left : Expr} (spelled : left.Spelled) {first : Nat} :
    Yields (nullTest left first) fun node => (Expr.bool node).Spelled := by
  have ends (op : NullTestOp) : Yields (do
      expectWord "NULL"
      return .nullTest (← Reader.spanFrom first) op (← toValue left) : Production BoolExpr)
      fun node => (Expr.bool node).Spelled :=
    yields_expectWord.bind fun _ _ => Gives.spanFrom.bind fun _ _ =>
      (yields_toValue spelled).bind fun _ one => .pure (.nullTest one)
  exact Gives.skip.bind fun _ _ => ends _

theorem yields_membership (sound : deeper.Sound) {left : Expr} (spelled : left.Spelled)
    {first : Nat} :
    Yields (membership deeper left first) fun node => (Expr.bool node).Spelled := by
  refine (yields_toValue spelled).bind fun _ one => Gives.skip.bind fun opens _ => ?_
  cases opens
  · have path : Yields path fun node => ∃ span name, node = .path span name none ∧ IsName name :=
      Gives.start.bind fun _ _ => yields_dottedName.bind fun name named =>
        Gives.spanFrom.bind fun span _ => .pure ⟨span, name, rfl, named⟩
    refine path.bind ?_
    rintro _ ⟨place, name, rfl, named⟩
    exact Gives.spanFrom.bind fun _ _ => .pure (.inVector one named)
  · exact (yields_values sound).bind fun _ each => Gives.spanFrom.bind fun _ _ =>
      .pure (.inList one each)

theorem yields_comparison (sound : deeper.Sound) : Yields (comparison deeper) Expr.Spelled := by
  refine Gives.start.bind fun first _ => (yields_sum sound).bind fun left spelled => ?_
  refine Gives.peek.bind fun found _ => ?_
  split
  · refine Gives.advance.bind fun _ _ => (yields_sum sound).bind fun _ right => ?_
    refine Gives.spanFrom.bind fun _ _ => (yields_toValue spelled).bind fun _ one => ?_
    exact (yields_toValue right).bind fun _ two => .pure (.comparison one two)
  · refine yields_nextIsWord.bind fun _ _ => Gives.second.bind fun _ _ => ?_
    split
    · exact Gives.advance.bind fun _ _ => Gives.advance.bind fun _ _ =>
        (yields_bounds sound spelled).bind fun _ bounded => .pure bounded
    refine Gives.skip.bind fun between _ => ?_
    split
    · exact (yields_bounds sound spelled).bind fun _ bounded => .pure bounded
    refine Gives.skip.bind fun is _ => ?_
    split
    · exact (yields_nullTest spelled).bind fun _ tested => .pure tested
    refine Gives.skip.bind fun inside _ => ?_
    split
    · exact (yields_membership sound spelled).bind fun _ member => .pure member
    · exact .pure spelled

theorem yields_negation (sound : deeper.Sound) : Yields (negation deeper) Expr.Spelled := by
  refine Gives.start.bind fun first _ => Gives.skip.bind fun negated _ => ?_
  cases negated
  · exact yields_comparison sound
  · exact sound.negation.bind fun _ spelled => Gives.spanFrom.bind fun _ _ =>
      .pure (.not (spelled_asPredicate spelled))

theorem productions_sound (levels : Nat) : (productions levels).Sound := by
  induction levels with
  | zero => exact ⟨.tooDeep, .tooDeep, .tooDeep⟩
  | succ levels ih =>
    exact ⟨yields_connected (yields_connected (yields_negation ih)), yields_negation ih, yields_signed ih⟩

theorem yields_whole : Yields whole Expr.Spelled := by
  refine (productions_sound nestingLimit).expression.bind fun expr spelled => ?_
  refine Gives.peek.bind fun found _ => ?_
  split
  · exact .pure spelled
  · exact Gives.place.bind fun _ _ => .fail

end ExpressionReader

end EventQuery.Reading

namespace EventQuery

open Reading

/-- What the reader gives has a text of its own. -/
theorem Expr.spelled_of_readExpr {text : String} {expr : Expr} (read : readExpr text = .ok expr) :
    expr.Spelled := by
  obtain ⟨placed, scans, runs⟩ := Outcome.bind_eq_ok.1 read
  exact ExpressionReader.yields_whole.run
    (forall_of_scanFrom (fun _ _ _ _ => proper_of_lexeme) scans) runs

end EventQuery
