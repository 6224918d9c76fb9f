import EventQuery.Expression.Traversal
import EventQuery.Proofs.Passages
import EventQuery.Reading.ExpressionReader

/-!
The spans of an expression that was read are faithful to its text: every production makes a
passage over the tokens it reads, and gives the nodes of the passage. Parentheses are part of
the passage only, and literals and casts of literals are nodes over all their tokens.
-/
namespace EventQuery.Reading.ExpressionReader

variable {α : Type} {tokens : List (Placed Token)} {cursor cursor₀ cursor' : Cursor Token}
  {good : α → Cursor Token → Prop}

/-- Wherever the production succeeds, it made a passage over the nodes of its value. -/
def Passes (tokens : List (Placed Token)) (production : Production α)
    (nodes : α → List Expr) : Prop :=
  ∀ cursor : Cursor Token, cursor.Sound tokens →
    Leads cursor production fun value cursor' => Passage tokens cursor (nodes value) cursor'

/-- The same for a production that is told where it starts. -/
def PassesFrom (tokens : List (Placed Token)) (production : Nat → Production α)
    (nodes : α → List Expr) : Prop :=
  ∀ cursor : Cursor Token, cursor.Sound tokens → Leads cursor (production cursor.place.start)
    fun value cursor' => Passage tokens cursor (nodes value) cursor'

/-! ### Steps -/

theorem leads_unexpected {expected : String} : Leads cursor (unexpected expected) good :=
  .peek (.place .fail)

theorem leads_advance (sound : cursor.Sound tokens) :
    Leads cursor Reader.advance fun _ cursor' => Perhaps tokens cursor [] cursor' := by
  obtain ⟨rest, last, stop⟩ := cursor
  rintro _ _ ⟨⟩
  cases rest with
  | nil => exact .nothing sound
  | cons placed others => exact .some (sound.passage rfl)

theorem leads_skip {token : Token} (sound : cursor.Sound tokens) :
    Leads cursor (Reader.skip token) fun _ cursor' => Perhaps tokens cursor [] cursor' := by
  rw [← bind_pure (Reader.skip token)]
  exact .skip (fun placed others shape _ => .pure (.some (sound.passage shape)))
    fun _ => .pure (.nothing sound)

/-- The next token is read and counts for nothing else. -/
theorem leads_next {token : Token} {value : α} (sound : cursor.Sound tokens)
    (found : cursor.tokens.head? = some token) :
    Leads cursor (do Reader.advance; return value) fun _ cursor' => Passage tokens cursor [] cursor' :=
  .advance found fun _ _ shape _ => .pure (sound.passage shape)

theorem passes_required {token : Token} {expected : String} :
    Passes tokens (do unless ← Reader.skip token do unexpected expected) fun _ => [] :=
  fun _ sound => .skip (fun _ _ shape _ => .pure (sound.passage shape)) fun _ => leads_unexpected

theorem passes_expect {token : Token} : Passes tokens (expect token) fun _ => [] := passes_required

theorem passes_expectWord {word : String} : Passes tokens (expectWord word) fun _ => [] :=
  passes_required

theorem leads_nextIsWord {word : String} :
    Leads cursor (nextIsWord word) fun _ cursor' => cursor' = cursor :=
  .peek (.pure rfl)

theorem passes_name : Passes tokens name fun _ => [] := by
  intro cursor sound
  refine .peek ?_
  split
  · rename_i found
    exact leads_next sound found
  · exact leads_unexpected

theorem leads_dottedNameRest {rounds : Nat} {read : String} (sound : cursor.Sound tokens) :
    Leads cursor (dottedNameRest rounds read) fun _ cursor' => Perhaps tokens cursor [] cursor' := by
  induction rounds generalizing cursor read with
  | zero => exact .pure (.nothing sound)
  | succ rounds ih =>
    refine (leads_skip sound).bind fun taken cursor₁ skipped => ?_
    cases taken with
    | false => exact .pure skipped
    | true =>
      refine (passes_name _ skipped.sound).bind fun word cursor₂ named => ?_
      exact (ih named.sound).mono fun _ _ more => .some (skipped.before (named.perhaps more))

theorem passes_dottedName : Passes tokens dottedName fun _ => [] := fun cursor sound =>
  (passes_name cursor sound).bind fun _ _ named => .remaining <|
    (leads_dottedNameRest named.sound).mono fun _ _ more => named.perhaps more

theorem leads_numberConstant {text : String} {negative : Bool} {span : Span} :
    Leads cursor (numberConstant text negative span) fun _ cursor' => cursor' = cursor := by
  unfold numberConstant
  dsimp only
  split
  · split
    · exact .pure rfl
    · exact .fail
  · split
    · exact .pure rfl
    · exact .fail

/-- The value of a production as an expression. -/
theorem leads_wrapped {production : Production α} {wrap : α → Expr}
    (leads : Leads cursor production fun value cursor' => Passage tokens cursor₀ [wrap value] cursor') :
    Leads cursor (do return wrap (← production))
      fun expr cursor' => Passage tokens cursor₀ [expr] cursor' :=
  leads.bind fun _ _ read => .pure read

/-! ### Predicates and values -/

theorem passage_asPredicate {expr : Expr} (passage : Passage tokens cursor [expr] cursor') :
    Passage tokens cursor [.bool (asPredicate expr)] cursor' := by
  have faithful := passage.single
  unfold asPredicate
  split
  · exact passage
  · exact passage.childless rfl rfl
  · have bounded := faithful.here.1
    refine passage.replace (.node ⟨bounded, ?_⟩ ?_) (Nat.le_refl _) (Nat.le_refl _)
    · exact .cons (Nat.le_refl _) bounded.nonempty (.nil (Nat.le_refl _))
    · exact List.forall_mem_singleton.2 faithful

theorem passage_asValue {expr : Expr} {node : ValueExpr}
    (passage : Passage tokens cursor [expr] cursor')
    (found : asValue expr = .ok node) : Passage tokens cursor [.value node] cursor' := by
  have faithful := passage.single
  unfold asValue at found
  split at found
  · cases found
    exact passage
  · cases found
    exact passage.childless rfl rfl
  · cases found
    have inside := faithful.here.2.within _ List.mem_cons_self
    exact passage.replace (faithful.child List.mem_cons_self) inside.1 inside.2
  · cases found

/-- A value is taken from what was read before. -/
theorem leads_toValue {expr : Expr} {next : ValueExpr → Production α}
    (passage : Passage tokens cursor₀ [expr] cursor')
    (rest : ∀ node, Passage tokens cursor₀ [.value node] cursor' → Leads cursor (next node) good) :
    Leads cursor (toValue expr >>= next) good := by
  have taken : Leads cursor (toValue expr) fun node cursor₁ =>
      Passage tokens cursor₀ [.value node] cursor' ∧ cursor₁ = cursor :=
    .lift fun _ found => ⟨passage_asValue passage found, rfl⟩
  exact taken.bind fun node _ ⟨passage, same⟩ => same ▸ rest node passage

/-- The productions one level deeper make passages. -/
structure Deeper.Passes (tokens : List (Placed Token)) (deeper : Deeper) : Prop where
  expression : ExpressionReader.Passes tokens deeper.expression fun expr => [expr]
  negation : ExpressionReader.Passes tokens deeper.negation fun expr => [expr]
  signed : ExpressionReader.Passes tokens deeper.signed fun expr => [expr]

variable {deeper : Deeper}

theorem Deeper.Passes.value (passes : deeper.Passes tokens) :
    ExpressionReader.Passes tokens deeper.value fun node => [.value node] := fun cursor sound =>
  (passes.expression cursor sound).bind fun expr cursor' passage => by
    rw [← bind_pure (toValue expr)]
    exact leads_toValue passage fun _ taken => .pure taken

theorem Deeper.Passes.predicate (passes : deeper.Passes tokens) :
    ExpressionReader.Passes tokens deeper.predicate fun node => [.bool node] := fun cursor sound =>
  (passes.expression cursor sound).bind fun _ _ passage => .pure (passage_asPredicate passage)

theorem passes_valuesRest (passes : deeper.Passes tokens) {rounds : Nat} :
    Passes tokens (valuesRest deeper rounds) fun nodes => nodes.map .value := by
  intro cursor sound
  induction rounds generalizing cursor with
  | zero => exact leads_unexpected
  | succ rounds ih =>
    refine (passes.value cursor sound).bind fun first cursor₁ isFirst => ?_
    refine (leads_skip isFirst.sound).bind fun closes cursor₂ skipped => ?_
    cases closes with
    | true => exact .pure (isFirst.perhaps skipped)
    | false =>
      refine (leads_skip skipped.sound).bind fun another cursor₃ skipped' => ?_
      cases another with
      | true =>
        refine (ih cursor₃ skipped'.sound).bind fun others cursor₄ areOthers => .pure ?_
        exact (isFirst.perhaps skipped).trans (skipped'.before areOthers)
      | false => exact leads_unexpected

/-- The values of a list that may be empty, up to its closing parenthesis. -/
theorem leads_values (passes : deeper.Passes tokens) (sound : cursor.Sound tokens) :
    Leads cursor (values deeper) fun nodes cursor' =>
      Perhaps tokens cursor (nodes.map .value) cursor' := by
  refine (leads_skip sound).bind fun closes cursor₁ skipped => ?_
  cases closes with
  | true => exact .pure skipped
  | false =>
    exact .remaining <| (passes_valuesRest passes cursor₁ skipped.sound).mono fun _ _ passage =>
      .some (skipped.before passage)

/-! ### Operators that are written as calls -/

/-- A word and the parenthesis behind it. -/
theorem leads_opening (sound : cursor.Sound tokens) {next : Unit → Production α}
    (rest : ∀ cursor', Passage tokens cursor [] cursor' → Leads cursor' (next ()) good) :
    Leads cursor (Reader.advance >>= fun _ => expect .openParen >>= next) good :=
  (leads_advance sound).bind fun _ cursor₁ moved => (passes_expect cursor₁ moved.sound).bind
    fun _ cursor₂ opened => rest cursor₂ (moved.before opened)

/-- The closing parenthesis, and the span of all that was read. -/
theorem leads_closing {nodes : List Expr} {next : Span → Production α}
    (passage : Passage tokens cursor₀ nodes cursor)
    (rest : ∀ cursor', Passage tokens cursor₀ nodes cursor' →
      Leads cursor' (next ⟨cursor₀.place.start, max cursor₀.place.start cursor'.last⟩) good) :
    Leads cursor (expect .closeParen >>= fun _ => Reader.spanFrom cursor₀.place.start >>= next) good :=
  (passes_expect cursor passage.sound).bind fun _ cursor' closed => .spanFrom <| rest cursor' <| by
    simpa using passage.trans closed

theorem passes_conversion (passes : deeper.Passes tokens) {kind : Conversion} :
    PassesFrom tokens (conversion deeper kind) fun node => [.value node] := fun _ sound =>
  leads_opening sound fun cursor₁ opened => (passes.value cursor₁ opened.sound).bind
    fun _ _ operand => leads_closing (opened.trans operand) fun _ closed => .pure (closed.node rfl rfl)

theorem passage_castNode {target : DataType} {operand : ValueExpr}
    (passage : Passage tokens cursor [.value operand] cursor') :
    Passage tokens cursor [.value (castNode ⟨cursor.place.start, max cursor.place.start cursor'.last⟩
      target operand)] cursor' := by
  unfold castNode
  split
  · split
    · split
      · exact passage.forget.node rfl rfl
      · exact passage.node rfl rfl
    · exact passage.node rfl rfl
  · exact passage.node rfl rfl

theorem passes_cast (passes : deeper.Passes tokens) :
    PassesFrom tokens (cast deeper) fun node => [.value node] := by
  refine fun cursor sound => leads_opening sound fun cursor₁ opened => ?_
  refine (passes.value cursor₁ opened.sound).bind fun value cursor₂ operand => ?_
  refine (passes_expectWord cursor₂ operand.sound).bind fun _ cursor₃ word => .place ?_
  refine (passes_name cursor₃ word.sound).bind fun _ cursor₄ named => ?_
  split
  · exact leads_closing (opened.trans (operand.trans (word.trans named))) fun _ closed =>
      .pure (passage_castNode closed)
  · exact .fail

theorem passes_zoneName : Passes tokens zoneName fun _ => [] := by
  refine fun cursor sound => .peek ?_
  split
  · rename_i found
    exact leads_next sound found
  · exact leads_unexpected

theorem passes_quantum (passes : deeper.Passes tokens) {keyword : String} :
    PassesFrom tokens (quantum deeper keyword) fun node => [.value node] := by
  refine fun cursor sound => leads_opening sound fun cursor₁ opened => .place ?_
  refine (passes_name cursor₁ opened.sound).bind fun unit cursor₂ named => ?_
  split
  · rename_i taken _
    refine (passes_expect cursor₂ named.sound).bind fun _ cursor₃ comma => ?_
    refine (passes.value cursor₃ comma.sound).bind fun value cursor₄ operand => ?_
    have read := opened.trans (named.trans (comma.trans operand))
    have ends (zone : Option String) {cursor' : Cursor Token}
        (read : Passage tokens cursor [.value value] cursor') : Leads cursor' (do
          expect .closeParen
          return .quantum (← Reader.spanFrom cursor.place.start) taken value zone none :
            Production ValueExpr)
          fun node cursor' => Passage tokens cursor [.value node] cursor' :=
      leads_closing read fun _ closed => .pure (closed.node rfl rfl)
    refine (leads_skip operand.sound).bind fun zoned cursor₅ skipped => ?_
    cases zoned with
    | true =>
      have name : Leads cursor₅ (some <$> zoneName) fun _ cursor' => Passage tokens cursor₅ [] cursor' :=
        (passes_zoneName cursor₅ skipped.sound).map fun _ _ read => read
      exact name.bind fun zone _ named => ends zone (read.trans (skipped.before named))
    | false => exact .given (ends none (read.perhaps skipped))
  · exact .fail

theorem passes_boundary {edge : Edge} :
    PassesFrom tokens (boundary edge) fun node => [.bool node] := fun _ sound =>
  leads_opening sound fun cursor₁ opened => (passes_dottedName cursor₁ opened.sound).bind
    fun _ _ named => leads_closing (opened.trans named) fun _ closed => .pure (closed.node rfl rfl)

theorem passes_stepReference : PassesFrom tokens stepReference fun node => [.bool node] := by
  refine fun cursor sound => leads_opening sound fun cursor₁ opened => ?_
  refine (leads_skip opened.sound).bind fun negative cursor₂ sign => .place (.peek ?_)
  split
  · refine (leads_advance sign.sound).bind fun _ cursor₃ digits => ?_
    refine leads_numberConstant.bind ?_
    rintro constant _ rfl
    split
    · refine .given (leads_closing ((opened.perhaps sign).perhaps digits) fun _ closed => ?_)
      exact .pure (closed.node rfl rfl)
    · exact (Leads.fail : Leads _ _ fun _ _ => False).bind fun _ _ => False.elim
  · exact (leads_unexpected : Leads _ _ fun _ _ => False).bind fun _ _ => False.elim

theorem leads_clause {keyword : String} {body : Production α} {nodes : α → List Expr}
    (passes : Passes tokens body nodes) (sound : cursor.Sound tokens) :
    Leads cursor (clause keyword body) fun part cursor' =>
      Perhaps tokens cursor (part.toList.flatMap nodes) cursor' := by
  refine (leads_skip sound).bind fun present cursor₁ skipped => ?_
  cases present with
  | true =>
    refine (passes cursor₁ skipped.sound).map fun _ _ read => .some ?_
    simpa using skipped.before read
  | false => exact .pure skipped

theorem passes_topCount (passes : deeper.Passes tokens) :
    Passes tokens (topCount deeper) fun node => [.value node] := fun cursor sound =>
  (passes.value cursor sound).bind fun _ cursor₁ count =>
    (passes_expect cursor₁ count.sound).bind fun _ _ comma => .pure (count.trans comma)

theorem passes_aggregation (passes : deeper.Passes tokens) {op : AggregationOp} :
    PassesFrom tokens (aggregation deeper op) fun node => [.value node] := by
  refine fun cursor sound => leads_opening sound fun cursor₁ opened => ?_
  have ends (count : Option ValueExpr) {cursor₂ : Cursor Token}
      (counted : Passage tokens cursor (count.toList.map .value) cursor₂) : Leads cursor₂ (do
        let target ← deeper.value
        let condition ← clause "WHERE" deeper.predicate
        let scope ← clause "SCOPE" dottedName
        let quanta ← clause "QUANTA" deeper.value
        expect .closeParen
        return .aggregation (← Reader.spanFrom cursor.place.start) op count target condition scope
          quanta none : Production ValueExpr)
        fun node cursor' => Passage tokens cursor [.value node] cursor' := by
    refine (passes.value cursor₂ counted.sound).bind fun target cursor₃ targeted => ?_
    refine (leads_clause passes.predicate targeted.sound).bind fun condition cursor₄ met => ?_
    refine (leads_clause passes_dottedName met.sound).bind fun scope cursor₅ named => ?_
    refine (leads_clause passes.value named.sound).bind fun quanta cursor₆ lasting => ?_
    have read := (((counted.trans targeted).perhaps met).perhaps named).perhaps lasting
    refine leads_closing read fun cursor₇ closed => .pure (closed.node rfl ?_)
    cases count <;> cases condition <;> cases scope <;> cases quanta <;> rfl
  split
  · have top : Leads cursor₁ (some <$> topCount deeper) fun count cursor' =>
        Passage tokens cursor₁ (count.toList.map .value) cursor' :=
      (passes_topCount passes cursor₁ opened.sound).map fun _ _ count => count
    exact top.bind fun count _ counted => ends count (opened.trans counted)
  · exact .given (ends none opened)

theorem passes_now : PassesFrom tokens now fun node => [.value node] := fun _ sound =>
  leads_opening sound fun _ opened => leads_closing opened fun _ closed => .pure (closed.node rfl rfl)

theorem leads_literal {token : Token} {value : Constant} (sound : cursor.Sound tokens)
    (found : cursor.tokens.head? = some token) : Leads cursor (literal value)
      fun node cursor' => Passage tokens cursor [.value node] cursor' :=
  .place (.advance found fun _ _ shape _ => .pure (sound.leaf shape rfl rfl))

/-! ### Names and calls -/

theorem passes_path : Passes tokens path fun node => [.value node] := fun cursor sound =>
  .start <| (passes_dottedName cursor sound).bind fun _ _ named => .spanFrom (.pure (named.node rfl rfl))

theorem passes_pathOrCall (passes : deeper.Passes tokens) :
    PassesFrom tokens (pathOrCall deeper) fun node => [.value node] := by
  refine fun cursor sound => (passes_dottedName cursor sound).bind fun name cursor₁ named => .spanFrom ?_
  refine (leads_skip named.sound).bind fun opens cursor₂ skipped => ?_
  cases opens with
  | true =>
    refine (leads_values passes skipped.sound).bind fun arguments cursor₃ listed => .spanFrom (.pure ?_)
    exact ((named.perhaps skipped).perhaps listed).node rfl rfl
  | false => exact .pure ((named.node rfl rfl).perhaps skipped)

theorem passes_called (passes : deeper.Passes tokens) {word : String} :
    PassesFrom tokens (called deeper word) fun expr => [expr] := by
  intro cursor sound
  unfold called
  split
  · exact leads_wrapped (passes_now cursor sound)
  · exact leads_wrapped (passes_cast passes cursor sound)
  · exact leads_wrapped (passes_quantum passes cursor sound)
  · exact leads_wrapped (passes_quantum passes cursor sound)
  · exact leads_wrapped (passes_boundary cursor sound)
  · exact leads_wrapped (passes_boundary cursor sound)
  · exact leads_wrapped (passes_stepReference cursor sound)
  · split
    · exact leads_wrapped (passes_aggregation passes cursor sound)
    · split
      · exact leads_wrapped (passes_conversion passes cursor sound)
      · exact leads_wrapped (passes_pathOrCall passes cursor sound)

theorem leads_keywordOrName (passes : deeper.Passes tokens) {word : String} {token : Token}
    (sound : cursor.Sound tokens) (found : cursor.tokens.head? = some token) :
    Leads cursor (keywordOrName deeper word cursor.place.start)
      fun expr cursor' => Passage tokens cursor [expr] cursor' := by
  unfold keywordOrName
  split
  · exact leads_wrapped (leads_literal sound found)
  · exact leads_wrapped (leads_literal sound found)
  · exact leads_wrapped (leads_literal sound found)
  · refine .second ?_
    split
    · exact passes_called passes cursor sound
    · exact leads_wrapped (passes_pathOrCall passes cursor sound)

/-! ### Operators -/

theorem passes_primary (passes : deeper.Passes tokens) :
    Passes tokens (primary deeper) fun expr => [expr] := by
  refine fun cursor sound => .place (.peek ?_)
  have number {text : String} {token : Token} (found : cursor.tokens.head? = some token) :
      Leads cursor (do
        Reader.advance
        return .value (.constant cursor.place (← numberConstant text false cursor.place)) :
          Production Expr) fun expr cursor' => Passage tokens cursor [expr] cursor' := by
    refine .advance found fun placed others shape _ => leads_numberConstant.bind ?_
    rintro value _ rfl
    exact .pure (sound.leaf shape rfl rfl)
  split
  · refine (leads_advance sound).bind fun _ cursor₁ opened => ?_
    refine (passes.expression cursor₁ opened.sound).bind fun expr cursor₂ inner => ?_
    refine (passes_expect cursor₂ inner.sound).bind fun _ cursor₃ closed => .pure ?_
    exact (opened.before inner).trans closed
  · rename_i found
    exact number found
  · rename_i found
    exact number found
  · rename_i found
    exact .advance found fun _ _ shape _ => .pure (sound.leaf shape rfl rfl)
  · rename_i found
    exact .advance found fun _ _ shape _ => .pure (sound.leaf shape rfl rfl)
  · rename_i found
    split
    · exact leads_unexpected
    · exact leads_keywordOrName passes sound found
  · exact leads_unexpected

/-- A minus in front of a number is part of its node. -/
theorem passes_signed (passes : deeper.Passes tokens) :
    Passes tokens (signed deeper) fun expr => [expr] := by
  refine fun cursor sound => .start (.peek ?_)
  dsimp only
  split
  · exact passes_primary passes cursor sound
  · rename_i sign isSign
    obtain ⟨token, found⟩ : ∃ token, cursor.tokens.head? = some token := by
      cases shape : cursor.tokens.head? with
      | none => simp [shape] at isSign
      | some token => exact ⟨token, rfl⟩
    refine .advance found fun placed others shape _ => .peek ?_
    have moved := sound.passage shape
    split
    · refine (leads_advance moved.sound).bind fun _ cursor₂ digits => .spanFrom ?_
      refine leads_numberConstant.bind ?_
      rintro value _ rfl
      exact .pure ((moved.perhaps digits).node rfl rfl)
    · refine (passes.signed _ moved.sound).bind fun expr cursor₂ operand => .spanFrom ?_
      exact leads_toValue operand fun node taken => .pure ((moved.trans taken).node rfl rfl)

theorem passes_chain {operand : Production Expr} {op? : Token → Option Arithmetic}
    (passes : Passes tokens operand fun expr => [expr]) :
    Passes tokens (chain operand op?) fun expr => [expr] := by
  refine fun cursor₀ sound => .start ((passes cursor₀ sound).bind fun left cursor read => .remaining ?_)
  generalize cursor.rest.length = rounds
  induction rounds generalizing left cursor with
  | zero => exact .pure read
  | succ rounds ih =>
    refine .peek ?_
    split
    · exact .pure read
    · refine (leads_advance read.sound).bind fun _ cursor₁ operator => ?_
      refine (passes cursor₁ operator.sound).bind fun right cursor₂ isRight => .spanFrom ?_
      refine leads_toValue read fun one isOne => leads_toValue isRight fun two isTwo => ih _ _ ?_
      exact ((isOne.perhaps operator).trans isTwo).node rfl rfl

theorem passes_connected {operand : Production Expr} {op : Connective}
    (passes : Passes tokens operand fun expr => [expr]) :
    Passes tokens (connected operand op) fun expr => [expr] := by
  refine fun cursor₀ sound => .start ((passes cursor₀ sound).bind fun left cursor read => .remaining ?_)
  generalize cursor.rest.length = rounds
  induction rounds generalizing left cursor with
  | zero => exact .pure read
  | succ rounds ih =>
    refine (leads_skip read.sound).bind fun taken cursor₁ operator => ?_
    cases taken with
    | false => exact .pure (read.perhaps operator)
    | true =>
      refine (passes cursor₁ operator.sound).bind fun right cursor₂ isRight => .spanFrom (ih _ _ ?_)
      exact (((passage_asPredicate read).perhaps operator).trans (passage_asPredicate isRight)).node rfl rfl

theorem passes_sum (passes : deeper.Passes tokens) :
    Passes tokens (sum deeper) fun expr => [expr] :=
  passes_chain (passes_chain (passes_signed passes))

section Comparisons

variable {left : Expr}

theorem leads_bounds (passes : deeper.Passes tokens) {op : BoundsOp}
    (read : Passage tokens cursor₀ [left] cursor) :
    Leads cursor (bounds deeper op left cursor₀.place.start)
      fun node cursor' => Passage tokens cursor₀ [.bool node] cursor' := by
  refine (passes_sum passes cursor read.sound).bind fun lower cursor₁ isLower => ?_
  refine (passes_expectWord cursor₁ isLower.sound).bind fun _ cursor₂ word => ?_
  refine (passes_sum passes cursor₂ word.sound).bind fun upper cursor₃ isUpper => .spanFrom ?_
  refine leads_toValue read fun one isOne => leads_toValue isLower fun two isTwo => ?_
  refine leads_toValue isUpper fun three isThree => .pure ?_
  exact (isOne.trans (isTwo.trans (word.trans isThree))).node rfl rfl

theorem leads_nullTest (read : Passage tokens cursor₀ [left] cursor) :
    Leads cursor (nullTest left cursor₀.place.start)
      fun node cursor' => Passage tokens cursor₀ [.bool node] cursor' := by
  refine (leads_skip read.sound).bind fun negated cursor₁ skipped => ?_
  refine (passes_expectWord cursor₁ skipped.sound).bind fun _ cursor₂ word => .spanFrom ?_
  exact leads_toValue read fun one isOne => .pure ((isOne.trans (skipped.before word)).node rfl rfl)

theorem leads_membership (passes : deeper.Passes tokens)
    (read : Passage tokens cursor₀ [left] cursor) :
    Leads cursor (membership deeper left cursor₀.place.start)
      fun node cursor' => Passage tokens cursor₀ [.bool node] cursor' := by
  refine leads_toValue read fun one isOne => ?_
  refine (leads_skip read.sound).bind fun opens cursor₁ skipped => ?_
  cases opens with
  | true =>
    refine (leads_values passes skipped.sound).bind fun candidates cursor₂ listed => .spanFrom (.pure ?_)
    exact ((isOne.perhaps skipped).perhaps listed).node rfl rfl
  | false =>
    refine (passes_path cursor₁ skipped.sound).bind fun vector cursor₂ isVector => .spanFrom (.pure ?_)
    exact (isOne.trans (skipped.before isVector)).node rfl rfl

theorem passes_comparison (passes : deeper.Passes tokens) :
    Passes tokens (comparison deeper) fun expr => [expr] := by
  refine fun cursor₀ sound => .start ?_
  refine (passes_sum passes cursor₀ sound).bind fun left cursor read => .peek ?_
  split
  · refine (leads_advance read.sound).bind fun _ cursor₁ operator => ?_
    refine (passes_sum passes cursor₁ operator.sound).bind fun right cursor₂ isRight => .spanFrom ?_
    refine leads_toValue read fun one isOne => leads_toValue isRight fun two isTwo => .pure ?_
    exact ((isOne.perhaps operator).trans isTwo).node rfl rfl
  · refine leads_nextIsWord.bind ?_
    rintro negated _ rfl
    refine .second ?_
    split
    · refine (leads_advance read.sound).bind fun _ cursor₁ not => ?_
      refine (leads_advance not.sound).bind fun _ cursor₂ between => ?_
      exact leads_wrapped (leads_bounds passes ((read.perhaps not).perhaps between))
    refine (leads_skip read.sound).bind fun between cursor₁ skipped => ?_
    have read := read.perhaps skipped
    split
    · exact leads_wrapped (leads_bounds passes read)
    refine (leads_skip read.sound).bind fun is cursor₂ skipped => ?_
    have read := read.perhaps skipped
    split
    · exact leads_wrapped (leads_nullTest read)
    refine (leads_skip read.sound).bind fun inside cursor₃ skipped => ?_
    have read := read.perhaps skipped
    split
    · exact leads_wrapped (leads_membership passes read)
    · exact .pure read

end Comparisons

theorem passes_negation (passes : deeper.Passes tokens) :
    Passes tokens (negation deeper) fun expr => [expr] := by
  refine fun cursor sound => .start ((leads_skip sound).bind fun negated cursor₁ skipped => ?_)
  cases negated with
  | true =>
    refine (passes.negation cursor₁ skipped.sound).bind fun expr cursor₂ operand => .spanFrom (.pure ?_)
    exact (skipped.before (passage_asPredicate operand)).node rfl rfl
  | false =>
    exact (passes_comparison passes cursor₁ skipped.sound).mono fun _ _ read => skipped.before read

theorem productions_passes (levels : Nat) : (productions levels).Passes tokens := by
  induction levels with
  | zero => exact ⟨fun _ _ => .tooDeep, fun _ _ => .tooDeep, fun _ _ => .tooDeep⟩
  | succ levels ih =>
    exact ⟨passes_connected (passes_connected (passes_negation ih)), passes_negation ih, passes_signed ih⟩

theorem passes_whole : Passes tokens whole fun expr => [expr] := by
  refine fun cursor sound => ?_
  refine ((productions_passes nestingLimit).expression cursor sound).bind fun expr cursor' read => .peek ?_
  split
  · exact .pure read
  · exact .place .fail

end EventQuery.Reading.ExpressionReader

namespace EventQuery

open Reading

/-- Every node of an expression that was read has a span that is not empty and lies in the text,
from the start of a token to the end of one; it holds the spans of the children, which do not
overlap and stand in the order of the children. -/
theorem readExpr_spans {text : String} {expr : Expr} (reads : readExpr text = .ok expr) :
    ∃ tokens, tokenize text = .ok tokens ∧ expr.Everywhere fun node =>
      node.span.start < node.span.stop ∧ node.span.stop ≤ text.utf8ByteSize ∧
      (∃ token ∈ tokens, token.span.start = node.span.start) ∧
      (∃ token ∈ tokens, token.span.stop = node.span.stop) ∧
      (∀ child ∈ node.children,
        node.span.start ≤ child.span.start ∧ child.span.stop ≤ node.span.stop) ∧
      ∀ i j child sibling, i < j → node.child? i = some child → node.child? j = some sibling →
        child.span.stop ≤ sibling.span.start := by
  obtain ⟨tokens, scans, runs⟩ := Outcome.bind_eq_ok.1 reads
  obtain ⟨⟨value, cursor'⟩, leads, rfl⟩ := Outcome.map_eq_ok.1 runs
  have line : Span.Line 0 (tokens.map Placed.span) text.utf8ByteSize := by
    have line := scanFrom_line scans
    rwa [byteLength_toList, Nat.zero_add] at line
  have passage := ExpressionReader.passes_whole ⟨tokens, 0, text.utf8ByteSize⟩
    ⟨List.suffix_refl tokens, line⟩ value cursor' leads
  refine ⟨tokens, scans, passage.single.imp fun node ⟨bounded, children⟩ => ?_⟩
  obtain ⟨nonempty, starts, token, member, stops⟩ := bounded
  have inside := (line.within _ (List.mem_map_of_mem member)).2
  refine ⟨nonempty, stops ▸ inside, starts, ⟨token, member, stops⟩, fun child member => ?_, ?_⟩
  · exact children.within _ (List.mem_map_of_mem member)
  · intro i j child sibling before isChild isSibling
    obtain ⟨inner, rfl⟩ := List.getElem?_eq_some_iff.1 isChild
    obtain ⟨inner', rfl⟩ := List.getElem?_eq_some_iff.1 isSibling
    have apart := List.pairwise_iff_getElem.1 (List.pairwise_map.1 children.pairwise)
    exact apart i j inner inner' before

/-- Parentheses are in the span of what is around them, and the quotes of a literal that is cast
in the span of the constant. -/
theorem readExpr_spans_parentheses :
    let text := "(a + -2) * 3 > CAST('7' AS LONG)"
    ∃ expr, readExpr text = .ok expr ∧
      (expr.nodesFrom 0).map (fun node => node.2.span) =
        [⟨0, 32⟩, ⟨0, 12⟩, ⟨1, 7⟩, ⟨1, 2⟩, ⟨5, 7⟩, ⟨11, 12⟩, ⟨15, 32⟩] ∧
      ∃ tokens, tokenize text = .ok tokens ∧ expr.Everywhere fun node =>
        (∃ token ∈ tokens, token.span.start = node.span.start) ∧
        ∀ child ∈ node.children,
          node.span.start ≤ child.span.start ∧ child.span.stop ≤ node.span.stop := by
  intro text
  have found : (readExpr text).map (fun expr => (expr.nodesFrom 0).map fun node => node.2.span) =
      .ok [⟨0, 32⟩, ⟨0, 12⟩, ⟨1, 7⟩, ⟨1, 2⟩, ⟨5, 7⟩, ⟨11, 12⟩, ⟨15, 32⟩] := by
    decide +kernel
  obtain ⟨expr, reads, places⟩ := Outcome.map_eq_ok.1 found
  obtain ⟨tokens, scans, spans⟩ := readExpr_spans reads
  refine ⟨expr, reads, places, tokens, scans, spans.imp ?_⟩
  rintro node ⟨_, _, starts, _, children, _⟩
  exact ⟨starts, children⟩

end EventQuery
