import EventQuery.Proofs.Rereading

/-!
What starts with a word: names, calls, and the operators that are written as calls. A word
that is no keyword starts a name.
-/
namespace EventQuery.Reading.ExpressionReader

variable {rest before after tokens tokens' : List Token} {levels k : Nat} {fits : Prop}
  {good : Expr → Prop} {node : ValueExpr}

/-! ### Words -/

theorem keywordOrName_free {deeper : Deeper} {word : String} (free : isReserved word = false)
    (first : Nat) :
    keywordOrName deeper word first = (do
      if (← Reader.second?) = some .openParen then called deeper word first
      else return .value (← pathOrCall deeper first)) := by
  unfold keywordOrName
  split
  · exact absurd free (by decide)
  · exact absurd free (by decide)
  · exact absurd free (by decide)
  · rfl

theorem primary_of_word {deeper : Deeper} {word : String} (free : isReserved word = false)
    (parses : ∀ first, Parses fits
      (do
        if (← Reader.second?) = some .openParen then called deeper word first
        else return .value (← pathOrCall deeper first)) (.word word :: before) after good) :
    Parses fits (primary deeper) (.word word :: before) after good := by
  have startsExpression : reserved.contains word = false := by
    unfold isReserved at free
    exact (Bool.or_eq_false_iff.1 free).1
  refine .place fun span => .peek ?_
  simp only [List.head?_cons, startsExpression, Bool.false_eq_true, if_false,
    keywordOrName_free free]
  exact parses _

/-- A word that starts an expression is no sign, no negation and no parenthesis. -/
theorem starts_word {word : String} (free : isReserved word = false) (more : List Token) :
    ∃ first others, .word word :: more = first :: others ∧
      [Token.plus, .minus, .word "NOT", .closeParen].contains first = false := by
  refine ⟨.word word, more, rfl, ?_⟩
  have other : word ≠ "NOT" := by
    rintro rfl
    exact absurd free (by decide)
  simp [other]

theorem primary_called {word : String} (free : isReserved word = false)
    (parses : ∀ k rest first, Parses (levels ≤ k) (called (productions k) word first)
      (.word word :: .openParen :: (tokens ++ .closeParen :: rest)) rest good) :
    Primary levels (calledTokens word tokens) good where
  starts := starts_word free _
  parses := by
    intro k rest _
    have shape : calledTokens word tokens ++ rest =
        .word word :: .openParen :: (tokens ++ .closeParen :: rest) := by
      simp [calledTokens, groupTokens]
    rw [shape]
    exact primary_of_word free fun first => .second (parses k rest first)

/-! ### Operators that are written as calls -/

theorem level_zero : True ↔ 0 ≤ k := iff_of_true trivial (Nat.zero_le k)

theorem free_quantum (taken : Quantum) : isReserved taken.keyword = false := by
  cases taken with
  | truncate => exact show isReserved "TRUNCATE" = false by decide
  | extract => exact show isReserved "EXTRACT" = false by decide

theorem primary_now : Primary 0 (calledTokens "NOW" []) fun x => x.bare = .value (.now .none) := by
  refine primary_called (by decide) fun k rest first => .congr level_zero ?_
  refine .finish (P := fun x => x.bare = .now .none) ?_ fun x same => .pure (by rw [Expr.bare, same])
  exact .advance (expect_token (expect_token (.spanFrom fun span => .pure rfl)))

theorem primary_conversion {kind : Conversion}
    (one : Primary levels tokens fun x => x.bare = .value node) :
    Primary (levels + 1) (calledTokens kind.keyword tokens)
      fun x => x.bare = .value (.conversion .none kind node) := by
  refine primary_called (by cases kind <;> decide) fun k rest first => ?_
  have chosen (deeper : Deeper) : called deeper kind.keyword first =
      (do return .value (← conversion deeper kind first)) := by cases kind <;> rfl
  rw [chosen]
  refine .finish (P := fun x => x.bare = .conversion .none kind node) ?_
    fun x same => .pure (by rw [Expr.bare, same])
  refine .advance (expect_token ((deeper_value one (.cons (by decide))).finish fun operand same => ?_))
  exact expect_token (.spanFrom fun span => .pure (by rw [ValueExpr.bare, same]))

theorem ofName?_name (type : DataType) : DataType.ofName? type.name = some type := by
  cases type <;> decide +kernel

/-- Casting goes by the constant, wherever that was read. -/
theorem bare_castNode {span : Span} {target : DataType} {operand : ValueExpr} :
    (castNode span target operand).bare = castNode .none target operand.bare := by
  cases operand with
  | constant place value =>
    simp only [castNode, ValueExpr.bare]
    split_ifs
    · cases value.cast target <;> rfl
    · rfl
  | aggregation => simp only [castNode, ValueExpr.bare_aggregation, ValueExpr.bare]
  | _ => rfl

theorem primary_cast {target : DataType}
    (one : Primary levels tokens fun x => x.bare = .value node) :
    Primary (levels + 1) (castTokens tokens target)
      fun x => x.bare = .value (castNode .none target node) := by
  refine primary_called (by decide) fun k rest first => ?_
  refine .finish (P := fun x => x.bare = castNode .none target node) ?_
    fun x same => .pure (by rw [Expr.bare, same])
  rw [List.append_assoc]
  refine .advance (expect_token ((deeper_value one (.cons (by decide))).finish fun operand same => ?_))
  refine expect_word (.place fun span => reads_name.bind ?_)
  rintro _ rfl
  rw [ofName?_name]
  exact expect_token (.spanFrom fun span => .pure (by rw [bare_castNode, same]))

theorem quantumOf?_keyword (taken : Quantum) :
    quantumOf? taken.keyword taken.unitKeyword = some taken := by
  cases taken with
  | truncate unit => cases unit <;> rfl
  | extract part => cases part <;> rfl

theorem primary_quantum {taken : Quantum} {zone : Option String}
    (one : Primary levels tokens fun x => x.bare = .value node) :
    Primary (levels + 1)
      (calledTokens taken.keyword (.word taken.unitKeyword :: .comma :: (tokens ++ zoneTokens zone)))
      fun x => x.bare = .value (.quantum .none taken node zone none) := by
  refine primary_called (free_quantum taken) fun k rest first => ?_
  have chosen (deeper : Deeper) : called deeper taken.keyword first =
      (do return .value (← quantum deeper taken.keyword first)) := by cases taken <;> rfl
  rw [chosen]
  refine .finish (P := fun x => x.bare = .quantum .none taken node zone none) ?_
    fun x same => .pure (by rw [Expr.bare, same])
  refine .advance (expect_token (.place fun span => reads_name.bind ?_))
  rintro _ rfl
  rw [quantumOf?_keyword]
  refine expect_token ?_
  rw [List.append_eq, List.append_assoc]
  cases zone with
  | none =>
    refine (deeper_value one (.cons (by decide))).finish fun operand same => .skip_other (by simp) ?_
    refine .bind (.pure rfl) ?_
    rintro _ rfl
    exact expect_token (.spanFrom fun span => .pure (by rw [ValueExpr.bare, same]))
  | some zone =>
    refine (deeper_value one (.cons (by decide))).finish fun operand same => .skip ?_
    have read : Reads (some <$> zoneName) (.string (Text.Quoted.quote zone) :: .closeParen :: rest)
        (.closeParen :: rest) (· = some zone) := by
      refine .map (P := (· = zone)) (.peek (.advance (.pure (unquote_quote zone)))) ?_
      rintro _ rfl
      rfl
    refine read.bind ?_
    rintro _ rfl
    exact expect_token (.spanFrom fun span => .pure (by rw [ValueExpr.bare, same]))

theorem primary_boundary {edge : Edge} {relation : String} :
    Primary 0 (calledTokens edge.keyword (nameTokens relation))
      fun x => x.bare = .bool (.boundary .none edge relation none) := by
  refine primary_called (by cases edge <;> decide) fun k rest first => .congr level_zero ?_
  have chosen (deeper : Deeper) : called deeper edge.keyword first =
      (do return .bool (← boundary edge first)) := by cases edge <;> rfl
  rw [chosen]
  refine .finish (P := fun x => x.bare = .boundary .none edge relation none) ?_
    fun x same => .pure (by rw [Expr.bare, same])
  refine .advance (expect_token ((reads_dottedName (by simp)).bind ?_))
  rintro _ rfl
  exact expect_token (.spanFrom fun span => .pure rfl)

theorem integral?_ofInteger (word : Int64) :
    (Constant.ofInteger word).integral? = some word.toInt := by
  unfold Constant.ofInteger
  split
  · exact congrArg some (Number.Width.toInt_of_int32? ‹_›)
  · rfl

theorem primary_step {step : Int64} :
    Primary 0 (calledTokens "STEP" (stepTokens step))
      fun x => x.bare = .bool (.stepReference .none step) := by
  refine primary_called (by decide) fun k rest first => .congr level_zero ?_
  refine .finish (P := fun x => x.bare = .stepReference .none step) ?_
    fun x same => .pure (by rw [Expr.bare, same])
  rw [stepTokens, List.append_assoc]
  refine .advance (expect_token (.skip_optional (by simp) (.place fun span => .peek ?_)))
  have same : step.toInt = if decide (step.toInt < 0) then -(step.toInt.natAbs : Int)
      else step.toInt.natAbs := by
    simp only [decide_eq_true_eq]
    split_ifs <;> omega
  refine .advance ((reads_integer same span).bind ?_)
  rintro _ rfl
  simp only [integral?_ofInteger, Option.bind_some, Number.Width.int64?_toInt]
  refine .bind (P := (· = step)) (.pure rfl) ?_
  rintro _ rfl
  exact expect_token (.spanFrom fun span => .pure rfl)

/-! ### Names and calls -/

theorem called_free {deeper : Deeper} {word : String} (free : word ∉ operatorWords) (first : Nat) :
    called deeper word first = (do return .value (← pathOrCall deeper first)) := by
  have other {keyword : String} (listed : keyword ∈ operatorWords) : keyword ≠ word := by
    rintro rfl
    exact free listed
  have noAggregate : (AggregationOp.all.find? fun op => op.keyword == word) = none := by
    refine List.find?_eq_none.2 fun op _ => ?_
    simpa using other (show op.keyword ∈ operatorWords by cases op <;> decide)
  have noConversion : (Conversion.all.find? fun kind => kind.keyword == word) = none := by
    refine List.find?_eq_none.2 fun kind _ => ?_
    simpa using other (show kind.keyword ∈ operatorWords by cases kind <;> decide)
  unfold called
  split
  all_goals first
    | exact absurd rfl (other (by decide))
    | simp only [noAggregate, noConversion]

/-- A name that may start an expression starts with a word of its own. -/
theorem exists_nameTokens {name : String} (starts : Starts name) :
    ∃ word others, nameWords name = word :: others ∧ isReserved word = false ∧
      nameTokens name = .word word :: others.flatMap fun word => [.dot, .word word] := by
  obtain ⟨word, others, shape⟩ := List.exists_cons_of_ne_nil (nameWords_ne_nil name)
  refine ⟨word, others, shape, starts word (by rw [shape]; rfl), ?_⟩
  rw [nameTokens, shape, intercalate_map_cons]
  rfl

theorem primary_path {name : String} (starts : Starts name) :
    Primary 0 (nameTokens name) fun x => x.bare = .value (.path .none name none) := by
  obtain ⟨word, others, -, free, shape⟩ := exists_nameTokens starts
  refine ⟨shape ▸ starts_word free _, fun k rest stops => .congr level_zero ?_⟩
  have reads (first : Nat) : Reads (do return .value (← pathOrCall (productions k) first) : Production Expr)
      (nameTokens name ++ rest) rest fun x => x.bare = .value (.path .none name none) := by
    refine .finish (P := fun x => x.bare = .path .none name none) ?_
      fun x same => .pure (by rw [Expr.bare, same])
    refine (reads_dottedName (stops.head_ne (by decide))).bind ?_
    rintro _ rfl
    exact .spanFrom fun span => .skip_other (stops.head_ne (by decide)) (.pure rfl)
  rw [shape, List.cons_append] at reads ⊢
  refine primary_of_word free fun first => .second ?_
  rw [if_neg]
  · exact reads first
  · cases others with
    | nil =>
      have ends : rest.head? ≠ some .openParen := stops.head_ne (by decide)
      simpa [← List.head?_eq_getElem?] using ends
    | cons => simp

theorem primary_call {name : String} {nodes wanted : List ValueExpr} (starts : Starts name)
    (free : name ∉ operatorWords) (each : ReadEach nodes wanted) :
    Primary (ValueExpr.levelsOfAll nodes)
      (nameTokens name ++ groupTokens ([.comma].intercalate (ValueExpr.tokensOfAll nodes)))
      fun x => x.bare = .value (.call .none name wanted none) := by
  obtain ⟨word, others, split, unreserved, shape⟩ := exists_nameTokens starts
  refine ⟨shape ▸ starts_word unreserved _, fun k rest stops => ?_⟩
  have parses (first : Nat) : Parses (ValueExpr.levelsOfAll nodes ≤ k)
      (do return .value (← pathOrCall (productions k) first) : Production Expr)
      (nameTokens name ++ groupTokens ([.comma].intercalate (ValueExpr.tokensOfAll nodes)) ++ rest) rest
      fun x => x.bare = .value (.call .none name wanted none) := by
    refine .finish (P := fun x => x.bare = .call .none name wanted none) ?_
      fun x same => .pure (by rw [Expr.bare, same])
    rw [List.append_assoc]
    refine (reads_dottedName (by simp [groupTokens])).bind ?_
    rintro _ rfl
    rw [groupTokens, List.cons_append, List.append_assoc]
    refine .spanFrom fun span => .skip ((reads_values each).finish fun found same => ?_)
    exact .spanFrom fun span => .pure (by rw [ValueExpr.bare, same])
  rw [shape, List.cons_append, List.cons_append] at parses ⊢
  refine primary_of_word unreserved fun first => .second ?_
  cases others with
  | nil =>
    have single : word = name := by rw [← intercalate_nameWords name, split, String.intercalate_singleton]
    subst single
    rw [if_pos (by simp [groupTokens]), called_free free]
    exact parses first
  | cons =>
    rw [if_neg (by simp)]
    exact parses first

/-! ### Aggregations -/

theorem parses_clause {α β : Type} {part : Option α} {keyword : String} {body : Production β}
    {write : α → List Token} {fits : α → Prop} {same : β → α → Prop}
    (each : ∀ found, part = some found →
      Parses (fits found) body (write found ++ rest) rest fun x => same x found)
    (absent : rest.head? ≠ some (.word keyword)) :
    Parses (∀ found, part = some found → fits found) (clause keyword body)
      (part.elim [] (fun found => .word keyword :: write found) ++ rest) rest
      fun x => Option.Rel same x part := by
  cases part with
  | none => exact .congr (by simp) (.skip_other absent (.pure .none))
  | some found =>
    have present : Parses (fits found) (clause keyword body)
        (.word keyword :: write found ++ rest) rest fun x => Option.Rel same x (some found) :=
      .skip ((each found rfl).map fun x isSame => .some isSame)
    exact present.congr (by simp)

theorem stopsAt_clause {α : Type} (part : Option α) (keyword : String) (write : α → List Token)
    (loose : 6 ≤ looseness (.word keyword)) (stops : StopsAt 6 rest) :
    StopsAt 6 (part.elim [] (fun found => .word keyword :: write found) ++ rest) := by
  cases part with
  | none => exact stops
  | some found => exact .cons loose

theorem head_clause {α : Type} (part : Option α) (keyword : String) (write : α → List Token)
    {token : Token} (other : token ≠ .word keyword) (absent : rest.head? ≠ some token) :
    (part.elim [] (fun found => .word keyword :: write found) ++ rest).head? ≠ some token := by
  cases part with
  | none => exact absent
  | some found => simpa using other.symm

theorem map_eq_of_rel {α β γ : Type} {f : α → γ} {g : β → γ} {part : Option α} {part' : Option β}
    (related : Option.Rel (fun x y => f x = g y) part part') : part.map f = part'.map g := by
  cases related with
  | none => rfl
  | some same => exact congrArg some same

/-- The value is read from its text. -/
abbrev ValueRead (node : ValueExpr) : Prop :=
  Primary node.levels node.tokens fun x => x.bare = .value node.reread

/-- The predicate is read from its text. -/
abbrev PredicateRead (node : BoolExpr) : Prop :=
  Primary node.levels node.tokens fun x => (asPredicate x).bare = node.reread

section Aggregation

variable {op : AggregationOp} {count quanta : Option ValueExpr} {target : ValueExpr}
  {condition : Option BoolExpr} {scope : Option String}

theorem parses_topCount {node : ValueExpr} (one : ValueRead node) :
    Parses (node.levels + 1 ≤ k) (topCount (productions k)) (node.tokens ++ .comma :: rest) rest
      fun x => x.bare = node.reread :=
  (deeper_value one (.cons (by decide))).finish fun _ same => expect_token (.pure same)

/-- What stands behind the count: the target, and the clauses that are there. -/
theorem parses_parts (only : ValueRead target)
    (met : ∀ node, condition = some node → PredicateRead node)
    (lasting : ∀ node, quanta = some node → ValueRead node) (first : Nat) :
    Parses (target.levels + 1 ≤ k ∧ (∀ found, condition = some found → found.levels + 1 ≤ k) ∧
        (∀ found, scope = some found → True) ∧ ∀ found, quanta = some found → found.levels + 1 ≤ k)
      (do
        let target ← (productions k).value
        let condition ← clause "WHERE" (productions k).predicate
        let scope ← clause "SCOPE" dottedName
        let quanta ← clause "QUANTA" (productions k).value
        expect .closeParen
        return .aggregation (← Reader.spanFrom first) op count target condition scope quanta none :
          Production ValueExpr)
      (target.tokens ++ (condition.elim [] (.word "WHERE" :: ·.tokens) ++
        (scope.elim [] (.word "SCOPE" :: nameTokens ·) ++
          (quanta.elim [] (.word "QUANTA" :: ·.tokens) ++ .closeParen :: rest)))) rest
      fun x => x.bare = .aggregation .none op (count.map ValueExpr.bare) target.reread
        (condition.map BoolExpr.reread) scope (quanta.map ValueExpr.reread) none := by
  -- what follows a part is the keyword of a later one, or the closing parenthesis
  have closes : StopsAt 6 (.closeParen :: rest) := .cons (by decide)
  have afterScope := stopsAt_clause quanta "QUANTA" ValueExpr.tokens (by decide) closes
  have afterCondition := stopsAt_clause scope "SCOPE" nameTokens (by decide) afterScope
  have afterTarget := stopsAt_clause condition "WHERE" BoolExpr.tokens (by decide) afterCondition
  have noQuanta {token : Token} (other : token ≠ .word "QUANTA") (open' : token ≠ .closeParen) :=
    head_clause quanta "QUANTA" ValueExpr.tokens other
      (show (Token.closeParen :: rest).head? ≠ some token by simpa using open'.symm)
  have noCondition := head_clause scope "SCOPE" nameTokens
    (show Token.word "WHERE" ≠ .word "SCOPE" by decide) (noQuanta (by decide) (by decide))
  refine (deeper_value only afterTarget).both fun target' sameTarget => ?_
  refine (parses_clause (fun found isCondition =>
    deeper_predicate (met found isCondition) afterCondition) noCondition).both
    fun condition' sameCondition => ?_
  have named (name : String) : Reads dottedName (nameTokens name ++ _) _ (fun x => id x = id name) :=
    reads_dottedName (afterScope.head_ne (by decide))
  refine (parses_clause (fun name _ => named name) (noQuanta (by decide) (by decide))).both
    fun scope' sameScope => ?_
  refine (parses_clause (fun found isQuanta => deeper_value (lasting found isQuanta) closes)
    (by simp)).finish fun quanta' sameQuanta => expect_token (.spanFrom fun span => .pure ?_)
  rw [ValueExpr.bare_aggregation, sameTarget, map_eq_of_rel sameCondition,
    map_eq_of_rel sameQuanta, ← Option.map_id_apply (x := scope'), map_eq_of_rel sameScope,
    Option.map_id_apply]

theorem primary_aggregation {span : Span} {scopePath : Option Path}
    (top : count.isSome = (op == AggregationOp.top))
    (counted : ∀ node, count = some node → ValueRead node) (only : ValueRead target)
    (met : ∀ node, condition = some node → PredicateRead node)
    (lasting : ∀ node, quanta = some node → ValueRead node) :
    ValueRead (.aggregation span op count target condition scope quanta scopePath) := by
  rw [ValueRead, ValueExpr.levels_aggregation, ValueExpr.tokens_aggregation,
    ValueExpr.reread_aggregation]
  refine primary_called (by cases op <;> decide) fun k rest first => ?_
  have chosen (deeper : Deeper) : called deeper op.keyword first =
      (do return .value (← aggregation deeper op first)) := by cases op <;> rfl
  rw [chosen]
  refine .finish (P := fun x => x.bare = .aggregation .none op (count.map ValueExpr.reread)
    target.reread (condition.map BoolExpr.reread) scope (quanta.map ValueExpr.reread) none) ?_
    fun x same => .pure (by rw [Expr.bare, same])
  have fits (n : Nat) : (n + 1 ≤ k ∧ target.levels + 1 ≤ k ∧
      (∀ found, condition = some found → found.levels + 1 ≤ k) ∧
      (∀ found, scope = some found → True) ∧
      (∀ found, quanta = some found → found.levels + 1 ≤ k)) ↔
      max n (max target.levels (max (condition.elim 0 (·.levels)) (quanta.elim 0 (·.levels)))) + 1 ≤ k := by
    cases condition <;> cases quanta <;>
      simp only [Option.some.injEq, forall_eq', reduceCtorEq, false_implies, implies_true, true_and,
        and_true, Option.elim_some, Option.elim_none] <;> omega
  refine .advance (expect_token ?_)
  cases count with
  | none =>
    have plain : op ≠ .top := by
      rintro rfl
      cases top
    rw [if_neg plain]
    refine .bind (P := (· = none)) (.pure rfl) ?_
    rintro _ rfl
    have whole := @parses_parts rest k op none quanta target condition scope only met lasting first
    simp only [Option.elim_none, List.nil_append, List.append_assoc] at whole ⊢
    refine whole.congr (Iff.trans ⟨fun all => ⟨?_, all⟩, And.right⟩ (fits 0))
    exact Nat.le_of_add_left_le all.1
  | some count =>
    have isTop : op = .top := by simpa using top
    rw [if_pos isTop]
    refine .congr (fits _) ?_
    simp only [Option.elim_some, List.append_assoc, List.cons_append, List.nil_append]
    refine ((parses_topCount (counted count rfl)).map (Q := fun x => x.map ValueExpr.bare =
      some count.reread) fun x same => congrArg some same).both fun count' same => ?_
    rw [Option.map_some, ← same]
    exact parses_parts only met lasting first

end Aggregation

end EventQuery.Reading.ExpressionReader
