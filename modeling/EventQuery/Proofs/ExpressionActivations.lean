import EventQuery.Proofs.ActivationTrees
import EventQuery.Proofs.SourceSpans

/-!
The activations of the expression reader. Expressions, negations and signed operands are the
productions that are entered; every other production is a part of them, and reads a token before
it comes to one of them.
-/
namespace EventQuery.Reading.ExpressionReader

variable {α β : Type} {cursor start : Cursor Token}

/-- The productions that are entered. -/
inductive Nested where
  | expression | negation | signed
  deriving DecidableEq, Repr

def Deeper.of (productions : Nested → Production Expr) : Deeper :=
  ⟨productions .expression, productions .negation, productions .signed⟩

/-- What a production does with the productions one level deeper. -/
def body (production : Nested) (productions : Nested → Production Expr) : Production Expr :=
  match production with
  | .expression => expression (.of productions)
  | .negation => negation (.of productions)
  | .signed => signed (.of productions)

/-- The productions when that many levels are free. -/
def nested (levels : Nat) : Nested → Production Expr
  | .expression => (productions levels).expression
  | .negation => (productions levels).negation
  | .signed => (productions levels).signed

theorem levels_nested : Levels body nested where
  zero production := by cases production <;> rfl
  succ levels production := by cases production <;> rfl

/-! ### Parts that call nothing -/

theorem consumes_required {token : Token} {expected : String} :
    Consumes (do unless ← Reader.skip token do unexpected expected) := fun _ =>
  .skip (fun _ _ shape _ => .pure (Cursor.passes_behind shape)) fun _ => leads_unexpected

theorem consumes_expect {token : Token} : Consumes (expect token) := consumes_required

theorem consumes_expectWord {word : String} : Consumes (expectWord word) := consumes_required

theorem consumes_name : Consumes name := by
  refine fun cursor => .peek ?_
  split
  · rename_i found
    exact .advance found fun _ _ shape _ => .pure (Cursor.passes_behind shape)
  · exact leads_unexpected

theorem consumes_zoneName : Consumes zoneName := by
  refine fun cursor => .peek ?_
  split
  · rename_i found
    exact .advance found fun _ _ shape _ => .pure (Cursor.passes_behind shape)
  · exact leads_unexpected

theorem stays_toValue {expr : Expr} :
    Leads cursor (toValue expr) fun _ cursor' => cursor' = cursor := .lift fun _ _ => rfl

theorem forward_unexpected {expected : String} : Forward (unexpected expected : Production α) :=
  fun _ => leads_unexpected

theorem forward_dottedNameRest {rounds : Nat} {read : String} :
    Forward (dottedNameRest rounds read) := by
  induction rounds generalizing read with
  | zero => exact .pure
  | succ rounds ih =>
    refine .bind .skip fun dot => ?_
    cases dot with
    | false => exact .pure
    | true => exact consumes_name.forward.bind fun word => ih

theorem consumes_dottedName : Consumes dottedName :=
  consumes_name.bind fun _ => .bind (.look fun _ => rfl) fun _ => forward_dottedNameRest

/-- The span of all that was read. -/
theorem forward_spanned {first : Nat} {node : Span → α} :
    Forward (do return node (← Reader.spanFrom first) : Production α) :=
  .bind (.look fun _ => rfl) fun _ => .pure

theorem consumes_path : Consumes path := .later (.look fun _ => rfl) fun _ =>
  consumes_dottedName.bind fun _ => forward_spanned

theorem forward_closed {first : Nat} {node : Span → α} :
    Forward (do expect .closeParen; return node (← Reader.spanFrom first) : Production α) :=
  consumes_expect.forward.bind fun _ => forward_spanned

/-- A word, the parenthesis behind it, and what stands in it. -/
theorem consumes_opened {next : Unit → Production α} (rest : Forward (next ())) :
    Consumes (Reader.advance >>= fun _ => expect .openParen >>= next) :=
  .later .advance fun _ => consumes_expect.bind fun _ => rest

theorem consumes_boundary {edge : Edge} {first : Nat} : Consumes (boundary edge first) :=
  consumes_opened (consumes_dottedName.forward.bind fun _ => forward_closed)

theorem consumes_now {first : Nat} : Consumes (now first) := consumes_opened forward_closed

theorem consumes_stepReference {first : Nat} : Consumes (stepReference first) := by
  refine consumes_opened (.bind .skip fun negative => .bind (.look fun _ => rfl) fun span => ?_)
  refine .bind (.look fun _ => rfl) fun found => ?_
  split
  · refine .bind .advance fun _ => .bind (.stay fun _ => leads_numberConstant) fun constant => ?_
    split
    · exact .bind .pure fun step => forward_closed
    · exact .bind .fail fun step => forward_closed
  · exact .bind forward_unexpected fun step => forward_closed

/-! ### Words in front of a parenthesis -/

theorem called_other {word : String}
    (other : word ∉ ["NOW", "CAST", "TRUNCATE", "EXTRACT", "START", "END", "STEP"])
    (deeper : Deeper) (first : Nat) : called deeper word first =
      match AggregationOp.all.find? fun op => op.keyword == word with
      | some op => do return .value (← aggregation deeper op first)
      | none =>
        match Conversion.all.find? fun kind => kind.keyword == word with
        | some kind => do return .value (← conversion deeper kind first)
        | none => do return .value (← pathOrCall deeper first) := by
  unfold called
  split
  all_goals first
    | exact absurd (by decide) other
    | rfl

theorem keywordOrName_other {word : String} (other : word ∉ ["TRUE", "FALSE", "NULL"])
    (deeper : Deeper) (first : Nat) : keywordOrName deeper word first = do
      if (← Reader.second?) = some .openParen then called deeper word first
      else return .value (← pathOrCall deeper first) := by
  unfold keywordOrName
  split
  all_goals first
    | exact absurd (by decide) other
    | rfl

/-! ### Parts that call others -/

section
variable {productions : Nested → Production Expr}

theorem proceeds_wrapped {part : (Nested → Production Expr) → Production α} {wrap : α → β}
    (proceeds : Proceeds productions part) :
    Proceeds productions fun productions => do return wrap (← part productions) := fun cursor =>
  (proceeds cursor).bind fun _ _ _ passes => .pure passes

/-- A word, the parenthesis behind it, and what stands in it. -/
theorem walks_opened {next : (Nested → Production Expr) → Production α}
    {good : α → Cursor Token → Prop}
    (rest : ∀ cursor', cursor.Passes cursor' → Walks productions cursor cursor' next good) :
    Walks productions cursor cursor
      (fun productions => Reader.advance >>= fun _ => expect .openParen >>= fun _ => next productions)
      good := by
  refine .move fun cursor₁ reaches => ?_
  exact consumes_expect.after fun _ cursor₂ passes => rest cursor₂ (reaches.trans_passes passes)

theorem walks_closed {cursor₀ : Cursor Token} {first : Nat} {node : Span → α}
    (reaches : cursor₀.Reaches cursor) : Walks productions start cursor
      (fun _ => do expect .closeParen; return node (← Reader.spanFrom first) : _ → Production α)
      fun _ cursor' => cursor₀.Passes cursor' := by
  refine consumes_expect.after fun _ cursor₁ passes => .look rfl (.pure ?_)
  exact reaches.trans_passes passes

theorem walks_clause {keyword : String} {part : (Nested → Production Expr) → Production α}
    (walks : ∀ {cursor}, start.Passes cursor → Walks productions start cursor part
      fun _ cursor' => cursor.Passes cursor') (passed : start.Passes cursor) :
    Walks productions start cursor (fun productions => clause keyword (part productions))
      fun _ _ => True := by
  refine .skip (fun cursor₁ word => ?_) (.pure trivial)
  exact (walks (passed.trans_reaches word.1)).map fun _ _ _ => trivial

theorem walks_literal {token : Token} {value : Constant}
    (found : cursor.tokens.head? = some token) :
    Walks productions cursor cursor (fun _ => literal value) fun _ cursor' => cursor.Passes cursor' :=
  .look rfl (.advance found fun _ passes => .pure passes)

theorem walks_nullTest {left : Expr} {first : Nat} : Walks productions cursor cursor
    (fun _ => nullTest left first) fun _ _ => True := by
  have ends {cursor₁ : Cursor Token} {op : NullTestOp} : Walks productions cursor cursor₁ (fun _ => do
      expectWord "NULL"
      return BoolExpr.nullTest (← Reader.spanFrom first) op (← toValue left)) fun _ _ => True :=
    consumes_expectWord.after fun _ _ _ => .look rfl (.stay stays_toValue fun _ => .pure trivial)
  exact .skip (fun _ _ => ends) ends

variable {operand : (Nested → Production Expr) → Production Expr}

theorem walks_chainRest (proceeds : Proceeds productions operand) {op? : Token → Option Arithmetic}
    {first rounds : Nat} {left : Expr} : Walks productions cursor cursor
      (fun productions => chainRest (operand productions) op? first rounds left) fun _ _ => True := by
  induction rounds generalizing cursor left with
  | zero => exact .pure trivial
  | succ rounds ih =>
    refine .peek ?_
    cases found : cursor.tokens.head?.bind op? with
    | none => exact .pure trivial
    | some op =>
      obtain ⟨token, isNext, -⟩ := Option.bind_eq_some_iff.1 found
      refine .advance isNext fun cursor₁ passes => ?_
      refine ((proceeds cursor₁).earlier passes.1).bind fun right cursor₂ _ read => .look rfl ?_
      refine .stay stays_toValue fun _ => .stay stays_toValue fun _ => ?_
      exact ih.earlier (passes.1.trans read.1)

theorem proceeds_chain (proceeds : Proceeds productions operand) {op? : Token → Option Arithmetic} :
    Proceeds productions fun productions => chain (operand productions) op? := by
  refine fun cursor => .look rfl ?_
  refine (proceeds cursor).bind fun left cursor₁ _ passes => .look rfl ?_
  exact ((walks_chainRest proceeds).earlier passes.1).behind passes

theorem walks_connectedRest (proceeds : Proceeds productions operand) {op : Connective}
    {first rounds : Nat} {left : Expr} : Walks productions cursor cursor
      (fun productions => connectedRest (operand productions) op first rounds left)
      fun _ _ => True := by
  induction rounds generalizing cursor left with
  | zero => exact .pure trivial
  | succ rounds ih =>
    refine .skip (fun cursor₁ passes => ?_) (.pure trivial)
    refine ((proceeds cursor₁).earlier passes.1).bind fun right cursor₂ _ read => .look rfl ?_
    exact ih.earlier (passes.1.trans read.1)

theorem proceeds_connected (proceeds : Proceeds productions operand) {op : Connective} :
    Proceeds productions fun productions => connected (operand productions) op := by
  refine fun cursor => .look rfl ?_
  refine (proceeds cursor).bind fun left cursor₁ _ passes => .look rfl ?_
  exact ((walks_connectedRest proceeds).earlier passes.1).behind passes

variable (consumes : ∀ production, Consumes (productions production))
include consumes

theorem walks_value (passed : start.Passes cursor) :
    Walks productions start cursor (fun productions => (Deeper.of productions).value)
      fun _ cursor' => cursor.Passes cursor' := by
  refine (Walks.enter .expression (consumes _) passed).bind fun expr cursor' _ passes => ?_
  exact .steps (stays_toValue.mono fun _ _ same => ⟨same ▸ .refl _, same ▸ passes⟩)

theorem walks_predicate (passed : start.Passes cursor) :
    Walks productions start cursor (fun productions => (Deeper.of productions).predicate)
      fun _ cursor' => cursor.Passes cursor' := by
  refine (Walks.enter .expression (consumes _) passed).bind fun expr cursor' _ passes => ?_
  exact .pure passes

theorem walks_valuesRest {rounds : Nat} (passed : start.Passes cursor) :
    Walks productions start cursor (fun productions => valuesRest (.of productions) rounds)
      fun _ _ => True := by
  induction rounds generalizing cursor with
  | zero => exact .steps leads_unexpected
  | succ rounds ih =>
    refine (walks_value consumes passed).bind fun first cursor₁ _ read => ?_
    have passed := passed.trans_reaches read.1
    refine .skip (fun cursor₂ _ => .pure trivial) (.skip (fun cursor₂ comma => ?_) ?_)
    · exact (ih (passed.trans_reaches comma.1)).bind fun _ _ _ _ => .pure trivial
    · exact .steps leads_unexpected

theorem walks_values (passed : start.Passes cursor) :
    Walks productions start cursor (fun productions => values (.of productions)) fun _ _ => True := by
  refine .skip (fun cursor₁ _ => .pure trivial) (.look rfl ?_)
  exact walks_valuesRest consumes passed

theorem proceeds_conversion {kind : Conversion} {first : Nat} :
    Proceeds productions fun productions => conversion (.of productions) kind first :=
  fun _ => walks_opened fun _ opened => (walks_value consumes opened).bind
    fun _ _ _ read => walks_closed (opened.1.trans read.1)

theorem proceeds_cast {first : Nat} :
    Proceeds productions fun productions => cast (.of productions) first := by
  refine fun cursor => walks_opened fun cursor₁ opened => ?_
  refine (walks_value consumes opened).bind fun operand cursor₂ _ read => ?_
  refine consumes_expectWord.after fun _ cursor₃ word => .look rfl ?_
  refine consumes_name.after fun typeName cursor₄ named => ?_
  cases target : DataType.ofName? typeName with
  | none => exact .fail
  | some target =>
    exact walks_closed (((opened.1.trans read.1).trans word.1).trans named.1)

theorem proceeds_quantum {keyword : String} {first : Nat} :
    Proceeds productions fun productions => quantum (.of productions) keyword first := by
  refine fun cursor => walks_opened fun cursor₁ opened => .look rfl ?_
  refine consumes_name.after fun unit cursor₂ named => ?_
  cases taken : quantumOf? keyword unit with
  | none => exact .fail
  | some taken =>
    refine consumes_expect.after fun _ cursor₃ comma => ?_
    have passed := (opened.trans_reaches named.1).trans_reaches comma.1
    refine (walks_value consumes passed).bind fun operand cursor₄ _ read => ?_
    have reaches := passed.1.trans read.1
    refine .skip (fun cursor₅ comma => ?_) (walks_closed reaches)
    refine consumes_zoneName.map.after fun zone cursor₆ named => ?_
    exact walks_closed ((reaches.trans comma.1).trans named.1)

theorem walks_topCount (passed : start.Passes cursor) :
    Walks productions start cursor (fun productions => topCount (.of productions))
      fun _ cursor' => cursor.Passes cursor' := by
  refine (walks_value consumes passed).bind fun count cursor₁ _ read => ?_
  exact consumes_expect.after fun _ cursor₂ comma => .pure (read.trans_reaches comma.1)

theorem proceeds_aggregation {op : AggregationOp} {first : Nat} :
    Proceeds productions fun productions => aggregation (.of productions) op first := by
  refine fun cursor => walks_opened fun cursor₁ opened => ?_
  have ends (count : Option ValueExpr) {cursor₂ : Cursor Token} (passed : cursor.Passes cursor₂) :
      Walks productions cursor cursor₂ (fun productions => do
        let target ← (Deeper.of productions).value
        let condition ← clause "WHERE" (Deeper.of productions).predicate
        let scope ← clause "SCOPE" dottedName
        let quanta ← clause "QUANTA" (Deeper.of productions).value
        expect .closeParen
        return ValueExpr.aggregation (← Reader.spanFrom first) op count target condition scope
          quanta none)
        fun _ cursor' => cursor.Passes cursor' := by
    refine (walks_value consumes passed).bind fun target cursor₃ _ read => ?_
    have passed := passed.trans_reaches read.1
    refine (walks_clause (walks_predicate consumes) passed).bind fun condition cursor₄ reaches _ => ?_
    have passed := passed.trans_reaches reaches
    have named : ∀ {cursor'}, cursor.Passes cursor' → Walks productions cursor cursor'
        (fun _ => dottedName) fun _ cursor'' => cursor'.Passes cursor'' := fun passed =>
      (consumes_dottedName.proceeds _).earlier passed.1
    refine (walks_clause named passed).bind fun scope cursor₅ reaches _ => ?_
    have passed := passed.trans_reaches reaches
    refine (walks_clause (walks_value consumes) passed).bind fun quanta cursor₆ reaches _ => ?_
    exact walks_closed (passed.1.trans reaches)
  by_cases top : op = .top
  · simp only [if_pos top]
    have counted : Walks productions cursor cursor₁ (fun productions =>
        some <$> topCount (.of productions)) fun _ cursor' => cursor₁.Passes cursor' :=
      (walks_topCount consumes opened).map fun _ _ passes => passes
    refine counted.bind fun count cursor₂ reaches _ => ?_
    exact ends count (opened.trans_reaches reaches)
  · simp only [if_neg top]
    exact ends none opened

/-! ### Names and calls -/

theorem proceeds_pathOrCall {first : Nat} :
    Proceeds productions fun productions => pathOrCall (.of productions) first := by
  refine fun cursor => consumes_dottedName.after fun name cursor₁ named => .look rfl ?_
  refine .skip (fun cursor₂ opened => ?_) (.pure named)
  have passed := named.trans_reaches opened.1
  refine (walks_values consumes passed).bind fun arguments cursor₃ reaches _ => .look rfl (.pure ?_)
  exact passed.trans_reaches reaches

theorem proceeds_called {word : String} {first : Nat} :
    Proceeds productions fun productions => called (.of productions) word first := by
  by_cases keyword : word ∈ ["NOW", "CAST", "TRUNCATE", "EXTRACT", "START", "END", "STEP"]
  · simp only [List.mem_cons, List.not_mem_nil, or_false] at keyword
    rcases keyword with rfl | rfl | rfl | rfl | rfl | rfl | rfl
    · exact proceeds_wrapped consumes_now.proceeds
    · exact proceeds_wrapped (proceeds_cast consumes)
    · exact proceeds_wrapped (proceeds_quantum consumes)
    · exact proceeds_wrapped (proceeds_quantum consumes)
    · exact proceeds_wrapped consumes_boundary.proceeds
    · exact proceeds_wrapped consumes_boundary.proceeds
    · exact proceeds_wrapped consumes_stepReference.proceeds
  · simp only [called_other keyword]
    cases AggregationOp.all.find? fun op => op.keyword == word with
    | some op => exact proceeds_wrapped (proceeds_aggregation consumes)
    | none =>
      cases Conversion.all.find? fun kind => kind.keyword == word with
      | some kind => exact proceeds_wrapped (proceeds_conversion consumes)
      | none => exact proceeds_wrapped (proceeds_pathOrCall consumes)

theorem walks_keywordOrName {word : String} {first : Nat} {token : Token}
    (found : cursor.tokens.head? = some token) : Walks productions cursor cursor
      (fun productions => keywordOrName (.of productions) word first)
      fun _ cursor' => cursor.Passes cursor' := by
  by_cases keyword : word ∈ ["TRUE", "FALSE", "NULL"]
  · have constant (value : Constant) : Walks productions cursor cursor
        (fun _ => do return Expr.value (← literal value)) fun _ cursor' => cursor.Passes cursor' :=
      (walks_literal found).bind fun _ _ _ passes => .pure passes
    simp only [List.mem_cons, List.not_mem_nil, or_false] at keyword
    rcases keyword with rfl | rfl | rfl
    · exact constant (.boolean true)
    · exact constant (.boolean false)
    · exact constant .null
  · simp only [keywordOrName_other keyword]
    refine .look rfl ?_
    by_cases opens : cursor.rest[1]?.map Placed.token = some .openParen
    · simp only [if_pos opens]
      exact proceeds_called consumes cursor
    · simp only [if_neg opens]
      exact proceeds_wrapped (proceeds_pathOrCall consumes) cursor

/-! ### Operators -/

theorem proceeds_primary : Proceeds productions fun productions => primary (.of productions) := by
  refine fun cursor => .look rfl (.peek ?_)
  have number {text : String} {token : Token} (found : cursor.tokens.head? = some token) :
      Walks productions cursor cursor (fun _ => do
        Reader.advance
        return Expr.value (.constant cursor.place (← numberConstant text false cursor.place)))
        fun _ cursor' => cursor.Passes cursor' := by
    exact .advance found fun cursor₁ passes => .stay leads_numberConstant fun value => .pure passes
  cases found : cursor.tokens.head? with
  | none => exact .steps leads_unexpected
  | some token =>
    cases token with
    | openParen =>
      refine .advance found fun cursor₁ opened => ?_
      refine (Walks.enter .expression (consumes _) opened).bind fun expr cursor₂ _ inner => ?_
      refine consumes_expect.after fun _ cursor₃ closed => .pure ?_
      exact (opened.trans_reaches inner.1).trans_reaches closed.1
    | integer text => exact number found
    | decimal text => exact number found
    | string raw => exact .advance found fun _ passes => .pure passes
    | parameter parameter => exact .advance found fun _ passes => .pure passes
    | word word =>
      cases isReserved : reserved.contains word with
      | true =>
        simp only [isReserved]
        exact .steps leads_unexpected
      | false =>
        simp only [isReserved]
        exact walks_keywordOrName consumes found
    | _ => exact .steps leads_unexpected

theorem proceeds_signed : Proceeds productions fun productions => signed (.of productions) := by
  refine fun cursor => .look rfl (.peek ?_)
  have operand {sign : Sign} {cursor₁ : Cursor Token} {first : Nat} (passes : cursor.Passes cursor₁) :
      Walks productions cursor cursor₁ (fun productions => do
        let operand ← (Deeper.of productions).signed
        let span ← Reader.spanFrom first
        return Expr.value (.unary span sign (← toValue operand)))
        fun _ cursor' => cursor.Passes cursor' := by
    refine (Walks.enter .signed (consumes _) passes).bind fun operand cursor₂ _ read => .look rfl ?_
    exact .stay stays_toValue fun value => .pure (passes.trans_reaches read.1)
  cases found : cursor.tokens.head? with
  | none => exact proceeds_primary consumes cursor
  | some token =>
    cases token with
    | minus =>
      refine .advance found fun cursor₁ passes => .peek ?_
      cases number : numberText? cursor₁.tokens.head? with
      | none => exact operand passes
      | some text =>
        refine .move fun cursor₂ reaches => .look rfl ?_
        refine .stay leads_numberConstant fun value => .pure ?_
        exact passes.trans_reaches reaches
    | plus => exact .advance found fun cursor₁ passes => .peek (operand passes)
    | _ => exact proceeds_primary consumes cursor

theorem proceeds_product : Proceeds productions fun productions => product (.of productions) :=
  proceeds_chain (proceeds_signed consumes)

theorem proceeds_sum : Proceeds productions fun productions => sum (.of productions) :=
  proceeds_chain (proceeds_product consumes)

/-! ### Comparisons -/

theorem walks_bounds {op : BoundsOp} {left : Expr} {first : Nat} : Walks productions cursor cursor
    (fun productions => bounds (.of productions) op left first) fun _ _ => True := by
  refine (proceeds_sum consumes cursor).bind fun lower cursor₁ _ passes => ?_
  refine consumes_expectWord.after fun _ cursor₂ word => ?_
  refine ((proceeds_sum consumes cursor₂).earlier (passes.1.trans word.1)).bind
    fun upper cursor₃ _ _ => .look rfl ?_
  exact .stay stays_toValue fun _ => .stay stays_toValue fun _ => .stay stays_toValue fun _ =>
    .pure trivial

theorem walks_membership {left : Expr} {first : Nat} (passed : start.Passes cursor) :
    Walks productions start cursor (fun productions => membership (.of productions) left first)
      fun _ _ => True := by
  refine .stay stays_toValue fun member => .skip (fun cursor₁ opened => ?_) ?_
  · have passed := passed.trans_reaches opened.1
    exact (walks_values consumes passed).bind fun candidates cursor₂ _ _ => .look rfl (.pure trivial)
  · exact consumes_path.after fun vector cursor₁ _ => .look rfl (.pure trivial)

theorem proceeds_comparison :
    Proceeds productions fun productions => comparison (.of productions) := by
  refine fun cursor => .look rfl ?_
  have wrapped {cursor' : Cursor Token} {part : (Nested → Production Expr) → Production BoolExpr}
      {good : BoolExpr → Cursor Token → Prop} (passed : cursor.Passes cursor')
      (walks : Walks productions cursor cursor' part good) :
      Walks productions cursor cursor' (fun productions => do return Expr.bool (← part productions))
        fun _ cursor'' => cursor.Passes cursor'' :=
    (walks.behind passed).bind fun _ _ _ passes => .pure passes
  refine (proceeds_sum consumes cursor).bind fun left cursor₁ _ passed => .peek ?_
  cases found : cursor₁.tokens.head?.bind relation? with
  | some op =>
    obtain ⟨token, isNext, -⟩ := Option.bind_eq_some_iff.1 found
    refine .advance isNext fun cursor₂ passes => ?_
    have reaches := passed.1.trans passes.1
    refine ((proceeds_sum consumes cursor₂).earlier reaches).bind fun right cursor₃ _ read => ?_
    refine .look rfl (.stay stays_toValue fun _ => .stay stays_toValue fun _ => .pure ?_)
    exact reaches.trans_passes read
  | none =>
    refine .stay leads_nextIsWord fun negated => .look rfl ?_
    by_cases between : (negated &&
        decide (cursor₁.rest[1]?.map Placed.token = some (.word "BETWEEN"))) = true
    · simp only [if_pos between]
      refine .move fun cursor₂ not => ?_
      refine .move fun cursor₃ word => ?_
      have passed := (passed.trans_reaches not).trans_reaches word
      exact wrapped passed ((walks_bounds consumes).earlier passed.1)
    · simp only [if_neg between]
      refine .skip (fun cursor₂ word => ?_) ?_
      · have passed := passed.trans_reaches word.1
        exact wrapped passed ((walks_bounds consumes).earlier passed.1)
      refine .skip (fun cursor₂ word => ?_) ?_
      · have passed := passed.trans_reaches word.1
        exact wrapped passed (walks_nullTest.earlier passed.1)
      refine .skip (fun cursor₂ word => ?_) (.pure passed)
      have passed := passed.trans_reaches word.1
      exact wrapped passed (walks_membership consumes passed)

theorem proceeds_negation : Proceeds productions fun productions => negation (.of productions) := by
  refine fun cursor => .look rfl ?_
  refine .skip (fun cursor₁ passes => ?_) (proceeds_comparison consumes cursor)
  refine (Walks.enter .negation (consumes _) passes).bind fun operand cursor₂ _ read => .look rfl ?_
  exact .pure (passes.trans_reaches read.1)

end

theorem deepening_body : Deepening body := by
  intro productions consumes production
  cases production with
  | expression => exact proceeds_connected (proceeds_connected (proceeds_negation consumes))
  | negation => exact proceeds_negation consumes
  | signed => exact proceeds_signed consumes

/-! ### Loops -/

/-- One more word of a name. -/
def nextName (read : String) (again : String → Production String) : Production String := do
  if ← Reader.skip .dot then again (read ++ "." ++ (← name)) else return read

def aroundNames (again : String → Production String) : Production String := do
  again (← name)

theorem holds_names : Holds aroundNames dottedName dottedNameRest 0 :=
  ⟨rfl, fun _ cursor => .after (consumes_name cursor) fun _ _ named => .enter _ named⟩

theorem ends_names : Ends nextName dottedNameRest 0 := by
  refine .intro (fun _ _ => rfl) (fun rounds read cursor => ?_) fun _ _ _ _ => rfl
  refine .skip (fun cursor₁ dot => ?_) .steps
  exact .after (consumes_name cursor₁) fun word cursor₂ named =>
    .enter _ (dot.trans_reaches named.1)

/-- One more value of a list. -/
def nextValue (deeper : Deeper) (_ : Unit) (again : Unit → Production (List ValueExpr)) :
    Production (List ValueExpr) := do
  let first ← deeper.value
  if ← Reader.skip .closeParen then return [first]
  if ← Reader.skip .comma then return first :: (← again ())
  unexpected "`,` or `)`"

/-- The values up to the closing parenthesis, as a loop without a state. -/
def valuesLoop (deeper : Deeper) (rounds : Nat) (_ : Unit) : Production (List ValueExpr) :=
  valuesRest deeper rounds

/-- The values of a list that may be empty. -/
def aroundValues (again : Unit → Production (List ValueExpr)) : Production (List ValueExpr) := do
  if ← Reader.skip .closeParen then return []
  again ()

def aroundArguments (first : Nat) (again : Unit → Production (List ValueExpr)) :
    Production ValueExpr := do
  let read ← dottedName
  let span ← Reader.spanFrom first
  if ← Reader.skip .openParen then
    let arguments ← aroundValues again
    return .call (← Reader.spanFrom first) read arguments none
  else return .path span read none

theorem holds_arguments {deeper : Deeper} {first : Nat} :
    Holds (aroundArguments first) (pathOrCall deeper first) (valuesLoop deeper) 1 := by
  refine ⟨rfl, fun again cursor => ?_⟩
  refine .after (consumes_dottedName cursor) fun read cursor₁ named => .look rfl ?_
  refine .skip (fun cursor₂ opened => .before (.skip (fun _ _ => .steps) ?_)) .steps
  exact .enter () (named.trans_reaches opened.1)

def aroundCandidates (left : Expr) (first : Nat) (again : Unit → Production (List ValueExpr)) :
    Production BoolExpr := do
  let member ← toValue left
  if ← Reader.skip .openParen then
    let candidates ← aroundValues again
    return .inList (← Reader.spanFrom first) member candidates
  else
    let vector ← path
    return .inVector (← Reader.spanFrom first) member vector

theorem holds_candidates {deeper : Deeper} {left : Expr} {first : Nat} :
    Holds (aroundCandidates left first) (membership deeper left first) (valuesLoop deeper) 1 := by
  refine ⟨rfl, fun again cursor => ?_⟩
  refine .after stays_toValue ?_
  rintro member _ rfl
  exact .skip (fun _ opened => .before (.skip (fun _ _ => .steps) (.enter () opened))) .steps

theorem ends_values {deeper : Deeper} (consumes : Consumes deeper.value) :
    Ends (nextValue deeper) (valuesLoop deeper) 1 := by
  refine .intro (fun _ _ => rfl) (fun rounds _ cursor => ?_) fun spare => absurd spare (by decide)
  refine .after (consumes cursor) fun first cursor₁ read => .skip (fun _ _ => .steps) ?_
  exact .skip (fun cursor₂ comma => .before (.enter () (read.trans_reaches comma.1))) .steps

/-- One more operator and operand of a chain that starts somewhere. -/
def nextOperand (operand : Production Expr) (op? : Token → Option Arithmetic) (chain : Nat × Expr)
    (again : Nat × Expr → Production Expr) : Production Expr := do
  match (← Reader.peek?).bind op? with
  | none => return chain.2
  | some op =>
    Reader.advance
    let right ← operand
    let span ← Reader.spanFrom chain.1
    let node := ValueExpr.binary span op (← toValue chain.2) (← toValue right)
    again (chain.1, .value node)

def chainLoop (operand : Production Expr) (op? : Token → Option Arithmetic) (rounds : Nat)
    (chain : Nat × Expr) : Production Expr :=
  chainRest operand op? chain.1 rounds chain.2

/-- The first operand of a chain. -/
def aroundChain (operand : Production Expr) (again : Nat × Expr → Production Expr) :
    Production Expr := do
  let first ← Reader.start
  let left ← operand
  again (first, left)

section
variable {operand : Production Expr}

theorem turns_aroundChain (consumes : Consumes operand) {again : Nat × Expr → Production Expr}
    (cursor : Cursor Token) : Turns again cursor cursor (aroundChain operand) :=
  .look rfl (.after (consumes cursor) fun _ _ read => .enter _ read)

theorem holds_chain (consumes : Consumes operand) {op? : Token → Option Arithmetic} :
    Holds (aroundChain operand) (chain operand op?) (chainLoop operand op?) 0 :=
  ⟨rfl, fun _ cursor => turns_aroundChain consumes cursor⟩

theorem ends_chain (consumes : Consumes operand) {op? : Token → Option Arithmetic} :
    Ends (nextOperand operand op?) (chainLoop operand op?) 0 := by
  refine .intro (fun _ _ => rfl) (fun rounds chain cursor => .look rfl ?_) fun _ _ _ _ => rfl
  cases found : (cursor.rest.head?.map Placed.token).bind op? with
  | none => exact .steps
  | some op =>
    refine .after (Forward.advance cursor) fun _ cursor₁ reaches => ?_
    refine .after (consumes cursor₁) fun right cursor₂ read => .look rfl ?_
    refine .after stays_toValue ?_
    rintro _ _ rfl
    refine .after stays_toValue ?_
    rintro _ _ rfl
    exact .enter _ (reaches.trans_passes read)

/-- One more connective and operand. -/
def nextConnected (operand : Production Expr) (op : Connective) (chain : Nat × Expr)
    (again : Nat × Expr → Production Expr) : Production Expr := do
  if ← Reader.skip (.word op.keyword) then
    let right ← operand
    let span ← Reader.spanFrom chain.1
    again (chain.1, .bool (.binary span op (asPredicate chain.2) (asPredicate right)))
  else return chain.2

def connectedLoop (operand : Production Expr) (op : Connective) (rounds : Nat)
    (chain : Nat × Expr) :
    Production Expr :=
  connectedRest operand op chain.1 rounds chain.2

theorem holds_connected (consumes : Consumes operand) {op : Connective} :
    Holds (aroundChain operand) (connected operand op) (connectedLoop operand op) 0 :=
  ⟨rfl, fun _ cursor => turns_aroundChain consumes cursor⟩

theorem ends_connected (consumes : Consumes operand) {op : Connective} :
    Ends (nextConnected operand op) (connectedLoop operand op) 0 := by
  refine .intro (fun _ _ => rfl) (fun rounds chain cursor => ?_) fun _ _ _ _ => rfl
  refine .skip (fun cursor₁ word => ?_) .steps
  exact .after (consumes cursor₁) fun right cursor₂ read => .look rfl
    (.enter _ (word.trans_reaches read.1))

end

/-- The loops of the reader, whatever is one level deeper: where they are, and that they end. -/
structure LoopsEnd (deeper : Deeper) : Prop where
  names : Holds aroundNames dottedName dottedNameRest 0 ∧ Ends nextName dottedNameRest 0
  arguments : ∀ first,
    Holds (aroundArguments first) (pathOrCall deeper first) (valuesLoop deeper) 1
  candidates : ∀ left first,
    Holds (aroundCandidates left first) (membership deeper left first) (valuesLoop deeper) 1
  values : Ends (nextValue deeper) (valuesLoop deeper) 1
  factors : Holds (aroundChain (signed deeper)) (product deeper)
      (chainLoop (signed deeper) factorOp?) 0 ∧
    Ends (nextOperand (signed deeper) factorOp?) (chainLoop (signed deeper) factorOp?) 0
  terms : Holds (aroundChain (product deeper)) (sum deeper) (chainLoop (product deeper) termOp?) 0 ∧
    Ends (nextOperand (product deeper) termOp?) (chainLoop (product deeper) termOp?) 0
  conjunctions : Holds (aroundChain (negation deeper)) (connected (negation deeper) .and)
      (connectedLoop (negation deeper) .and) 0 ∧
    Ends (nextConnected (negation deeper) .and) (connectedLoop (negation deeper) .and) 0
  disjunctions : Holds (aroundChain (connected (negation deeper) .and)) (expression deeper)
      (connectedLoop (connected (negation deeper) .and) .or) 0 ∧
    Ends (nextConnected (connected (negation deeper) .and) .or)
      (connectedLoop (connected (negation deeper) .and) .or) 0

theorem loops_end (levels : Nat) : LoopsEnd (productions levels) := by
  have consumes := levels_nested.consumes deepening_body levels
  have value : Consumes (productions levels).value := (consumes .expression).bind fun _ =>
    .stay fun _ => stays_toValue
  have signs := (proceeds_signed consumes).consumes
  have products := (proceeds_product consumes).consumes
  have negations := (proceeds_negation consumes).consumes
  have conjunctions : Consumes (connected (negation (productions levels)) .and) :=
    (proceeds_connected (proceeds_negation consumes)).consumes
  exact {
    names := ⟨holds_names, ends_names⟩
    arguments := fun _ => holds_arguments
    candidates := fun _ _ => holds_candidates
    values := ends_values value
    factors := ⟨holds_chain signs, ends_chain signs⟩
    terms := ⟨holds_chain products, ends_chain products⟩
    conjunctions := ⟨holds_connected negations, ends_connected negations⟩
    disjunctions := ⟨holds_connected conjunctions, ends_connected conjunctions⟩ }

end EventQuery.Reading.ExpressionReader
