import EventQuery.Proofs.GrammarLevels

/-!
What is read of the text of an expression: the expression itself, but that a minus in front
of a numeral becomes part of the number, and the cast of a constant may become a constant.
-/
namespace EventQuery

open Reading
open Reading.ExpressionReader (castNode)

/-! ### The tree that is read -/

mutual

/-- The predicate that is read of the text of a predicate. -/
def BoolExpr.reread : BoolExpr → BoolExpr
  | .constant _ value => .constant .none value
  | .binary _ op left right => .binary .none op left.reread right.reread
  | .not _ operand => .not .none operand.reread
  | .comparison _ op left right => .comparison .none op left.reread right.reread
  | .bounds _ op value lower upper => .bounds .none op value.reread lower.reread upper.reread
  | .nullTest _ op operand => .nullTest .none op operand.reread
  | .inList _ value candidates => .inList .none value.reread (ValueExpr.rereads candidates)
  | .inVector _ value vector => .inVector .none value.reread vector.bare
  | .wrapper _ value => .wrapper .none value.reread
  | .boundary _ edge relation _ => .boundary .none edge relation none
  | .stepReference _ step => .stepReference .none step

/-- The value that is read of the text of a value. -/
def ValueExpr.reread : ValueExpr → ValueExpr
  | .constant _ value => .constant .none value
  | .path _ name _ => .path .none name none
  | .parameter _ name _ => .parameter .none name none
  | .binary _ op left right => .binary .none op left.reread right.reread
  | .unary _ sign operand =>
    match ValueExpr.negated? sign operand with
    | some value => .constant .none value
    | none => .unary .none sign operand.reread
  | .cast _ target operand => castNode .none target operand.reread
  | .conversion _ kind operand => .conversion .none kind operand.reread
  | .quantum _ taken operand zone _ => .quantum .none taken operand.reread zone none
  | .call _ name arguments _ => .call .none name (ValueExpr.rereads arguments) none
  | .aggregation _ op count target condition scope quanta _ =>
    let count := match count with
      | some count => some count.reread
      | none => none
    let condition := match condition with
      | some condition => some condition.reread
      | none => none
    let quanta := match quanta with
      | some quanta => some quanta.reread
      | none => none
    .aggregation .none op count target.reread condition scope quanta none
  | .now _ => .now .none

def ValueExpr.rereads : List ValueExpr → List ValueExpr
  | [] => []
  | node :: rest => node.reread :: ValueExpr.rereads rest

end

def Expr.reread : Expr → Expr
  | .bool node => .bool node.reread
  | .value node => .value node.reread

theorem ValueExpr.rereads_eq_map (nodes : List ValueExpr) : rereads nodes = nodes.map reread := by
  induction nodes with
  | nil => rfl
  | cons node rest ih => rw [rereads, ih, List.map_cons]

theorem ValueExpr.reread_aggregation {span : Span} {op : AggregationOp}
    {count quanta : Option ValueExpr} {target : ValueExpr} {condition : Option BoolExpr}
    {scope : Option String} {scopePath : Option Path} :
    (aggregation span op count target condition scope quanta scopePath).reread =
      .aggregation .none op (count.map reread) target.reread (condition.map BoolExpr.reread) scope
        (quanta.map reread) none := by
  cases count <;> cases condition <;> cases quanta <;> rfl

namespace Reading.ExpressionReader

variable {rest after tokens tokens' tokens'' : List Token} {levels levels' levels'' k : Nat}
  {node node' node'' : ValueExpr}

/-! ### Values one level deeper -/

theorem Begins.value {level : Level}
    (one : Begins level levels tokens fun x => x.bare = .value node) (stops : StopsAt 6 rest) :
    Parses (levels + 1 ≤ k) (productions k).value (tokens ++ rest) rest fun x => x.bare = node :=
  (deeper_expression fun _ => one.expression stops).finish fun _ same => reads_toValue same

theorem deeper_value (one : Primary levels tokens fun x => x.bare = .value node)
    (stops : StopsAt 6 rest) :
    Parses (levels + 1 ≤ k) (productions k).value (tokens ++ rest) rest fun x => x.bare = node :=
  (Begins.of_primary one : Begins .primary _ _ _).value stops

theorem deeper_predicate {node : BoolExpr}
    (one : Primary levels tokens fun x => (asPredicate x).bare = node) (stops : StopsAt 6 rest) :
    Parses (levels + 1 ≤ k) (productions k).predicate (tokens ++ rest) rest fun x => x.bare = node :=
  (deeper_expression fun _ => one.expression stops).finish fun _ same => .pure same

/-! ### Comparisons -/

namespace Begins

theorem comparison {op : Relation} (one : Begins .sum levels tokens fun x => x.bare = .value node)
    (two : Begins .sum levels' tokens' fun x => x.bare = .value node') :
    Begins .comparison (max levels levels') (tokens ++ op.token :: tokens')
      fun x => x.bare = .bool (.comparison .none op node node') := by
  refine .of_reads one.starts_append (fun _ _ _ _ => rfl) fun k rest stops => ?_
  have operator : StopsAt 3 (op.token :: (tokens' ++ rest)) := .cons (by cases op <;> decide)
  have known : relation? op.token = some op := by cases op <;> rfl
  rw [List.append_assoc, List.cons_append]
  refine .congr (Nat.max_le).symm (.start fun first =>
    (one.reads operator).both fun left isLeft => .peek ?_)
  rw [List.head?_cons, Option.bind_some, known]
  refine .advance ((two.reads (stops.mono (by decide))).finish fun right isRight => ?_)
  refine .spanFrom fun span => (reads_toValue isLeft).bind fun left' sameLeft =>
    (reads_toValue isRight).bind fun right' sameRight => .pure ?_
  rw [Expr.bare, BoolExpr.bare, sameLeft, sameRight]

/-- What follows a value whose next word starts a bound, a null test or a membership. -/
theorem comparison_word {word : String} {fits : Prop} {good : Expr → Prop}
    (one : Begins .sum levels tokens fun x => x.bare = .value node)
    (tight : looseness (.word word) = 3)
    (further : ∀ first left, left.bare = .value node → Parses fits
      (do
        if (← nextIsWord "NOT") && (← Reader.second?) = some (.word "BETWEEN") then
          Reader.advance
          Reader.advance
          return .bool (← ExpressionReader.bounds (productions k) .notBetween left first)
        else if ← Reader.skip (.word "BETWEEN") then
          return .bool (← ExpressionReader.bounds (productions k) .between left first)
        else if ← Reader.skip (.word "IS") then
          return .bool (← ExpressionReader.nullTest left first)
        else if ← Reader.skip (.word "IN") then
          return .bool (← membership (productions k) left first)
        else return left)
      (.word word :: rest) after good) :
    Parses (levels ≤ k ∧ fits) (ExpressionReader.comparison (productions k))
      (tokens ++ .word word :: rest) after good := by
  refine .start fun first => (one.reads (.cons tight.ge)).both fun left isLeft => .peek ?_
  exact further first left isLeft

theorem parses_bounds {op : BoundsOp} {left : Expr} {first : Nat} (isLeft : left.bare = .value node)
    (two : Begins .sum levels' tokens' fun x => x.bare = .value node')
    (three : Begins .sum levels'' tokens'' fun x => x.bare = .value node'') (stops : StopsAt 4 rest) :
    Parses (levels' ≤ k ∧ levels'' ≤ k) (ExpressionReader.bounds (productions k) op left first)
      (tokens' ++ .word "AND" :: (tokens'' ++ rest)) rest
      fun x => x.bare = .bounds .none op node node' node'' := by
  refine (two.reads (.cons (by decide))).both fun lower isLower => expect_word ?_
  refine (three.reads (stops.mono (by decide))).finish fun upper isUpper => .spanFrom fun span => ?_
  refine (reads_toValue isLeft).bind fun left' sameLeft =>
    (reads_toValue isLower).bind fun lower' sameLower =>
      (reads_toValue isUpper).bind fun upper' sameUpper => .pure ?_
  rw [BoolExpr.bare, sameLeft, sameLower, sameUpper]

theorem bounds {op : BoundsOp} (one : Begins .sum levels tokens fun x => x.bare = .value node)
    (two : Begins .sum levels' tokens' fun x => x.bare = .value node')
    (three : Begins .sum levels'' tokens'' fun x => x.bare = .value node'') :
    Begins .comparison (max levels (max levels' levels''))
      (tokens ++ (op.tokens ++ (tokens' ++ .word "AND" :: tokens'')))
      fun x => x.bare = .bool (.bounds .none op node node' node'') := by
  refine .of_reads one.starts_append (fun _ _ _ _ => rfl) fun k rest stops => ?_
  have fits : (levels ≤ k ∧ levels' ≤ k ∧ levels'' ≤ k) ↔ max levels (max levels' levels'') ≤ k := by
    rw [Nat.max_le, Nat.max_le]
  have shape : tokens ++ (op.tokens ++ (tokens' ++ .word "AND" :: tokens'')) ++ rest =
      tokens ++ (op.tokens ++ (tokens' ++ .word "AND" :: (tokens'' ++ rest))) := by simp
  rw [shape]
  refine .congr fits ?_
  cases op with
  | between =>
    refine comparison_word one (by decide) fun first left isLeft => nextIsWord_eq (.second ?_)
    simp only [List.head?_cons, Option.some.injEq, Token.word.injEq, String.reduceEq, decide_false,
      Bool.false_and, Bool.false_eq_true, if_false]
    exact .skip ((parses_bounds isLeft two three stops).finish fun x same => .pure (by rw [Expr.bare, same]))
  | notBetween =>
    refine comparison_word one (by decide) fun first left isLeft => nextIsWord_eq (.second ?_)
    simp only [List.head?_cons, decide_true, Bool.true_and]
    refine .advance (.advance ?_)
    exact (parses_bounds isLeft two three stops).finish fun x same => .pure (by rw [Expr.bare, same])

theorem nullTest {op : NullTestOp} (one : Begins .sum levels tokens fun x => x.bare = .value node) :
    Begins .comparison levels (tokens ++ op.tokens)
      fun x => x.bare = .bool (.nullTest .none op node) := by
  refine .of_reads one.starts_append (fun _ _ _ _ => rfl) fun k rest stops => ?_
  have test (op : NullTestOp) {left : Expr} (first : Nat) (isLeft : left.bare = .value node) :
      Reads (ExpressionReader.nullTest left first)
        ((if op = .isNotNull then [.word "NOT"] else []) ++ .word "NULL" :: rest)
        rest fun x => x.bare = .nullTest .none op node := by
    refine .skip_optional (by simp) (expect_word (.spanFrom fun span => ?_))
    refine (reads_toValue isLeft).bind fun left' sameLeft => .pure ?_
    cases op <;> simp [BoolExpr.bare, sameLeft]
  have shape : tokens ++ op.tokens ++ rest = tokens ++ .word "IS" ::
      ((if op = .isNotNull then [.word "NOT"] else []) ++ .word "NULL" :: rest) := by
    cases op <;> simp [NullTestOp.tokens]
  rw [shape]
  refine .congr (iff_of_eq (and_true _)) (comparison_word one (by decide) fun first left isLeft =>
    nextIsWord_eq (.second ?_))
  simp only [List.head?_cons, Option.some.injEq, Token.word.injEq, String.reduceEq, decide_false,
    Bool.false_and, Bool.false_eq_true, if_false]
  refine .skip_other (by simp) (.skip ?_)
  exact (test op first isLeft).finish fun x same => .pure (by rw [Expr.bare, same])

end Begins

theorem primary_comparison {op : Relation}
    (one : Primary levels tokens fun x => x.bare = .value node)
    (two : Primary levels' tokens' fun x => x.bare = .value node') :
    Primary (max levels levels' + 1) (groupTokens (tokens ++ op.token :: tokens'))
      fun x => x.bare = .bool (.comparison .none op node node') :=
  (Begins.comparison (.of_primary one) (.of_primary two)).group

theorem primary_bounds {op : BoundsOp} (one : Primary levels tokens fun x => x.bare = .value node)
    (two : Primary levels' tokens' fun x => x.bare = .value node')
    (three : Primary levels'' tokens'' fun x => x.bare = .value node'') :
    Primary (max levels (max levels' levels'') + 1)
      (groupTokens (tokens ++ (op.tokens ++ (tokens' ++ .word "AND" :: tokens''))))
      fun x => x.bare = .bool (.bounds .none op node node' node'') :=
  (Begins.bounds (.of_primary one) (.of_primary two) (.of_primary three)).group

theorem primary_nullTest {op : NullTestOp}
    (one : Primary levels tokens fun x => x.bare = .value node) :
    Primary (levels + 1) (groupTokens (tokens ++ op.tokens))
      fun x => x.bare = .bool (.nullTest .none op node) :=
  (Begins.nullTest (.of_primary one)).group

/-! ### Memberships -/

theorem reads_path {name : String} (ends : rest.head? ≠ some .dot) :
    Reads path (nameTokens name ++ rest) rest fun x => x.bare = .path .none name none := by
  refine .start fun first => (reads_dottedName ends).bind fun read same => .spanFrom fun span => ?_
  exact .pure (by rw [same, ValueExpr.bare])

/-- What follows the word `IN`. -/
theorem Begins.comparison_in {fits : Prop} {wanted : BoolExpr}
    (one : Begins .sum levels tokens fun x => x.bare = .value node)
    (further : ∀ first left, left.bare = .value node →
      Parses fits (membership (productions k) left first) rest after fun x => x.bare = wanted) :
    Parses (levels ≤ k ∧ fits) (ExpressionReader.comparison (productions k))
      (tokens ++ .word "IN" :: rest) after fun x => x.bare = .bool wanted := by
  refine comparison_word one (by decide) fun first left isLeft => nextIsWord_eq (.second ?_)
  simp only [List.head?_cons, Option.some.injEq, Token.word.injEq, String.reduceEq, decide_false,
    Bool.false_and, Bool.false_eq_true, if_false]
  refine .skip_other (by simp) (.skip_other (by simp) (.skip ?_))
  exact (further first left isLeft).finish fun x same => .pure (by rw [Expr.bare, same])

theorem head_nameTokens (name : String) :
    ∃ word more, nameTokens name = .word word :: more ∧ (nameWords name).head? = some word := by
  obtain ⟨first, words, shape⟩ := List.exists_cons_of_ne_nil (nameWords_ne_nil name)
  refine ⟨first, words.flatMap fun word => [.dot, .word word], ?_, by rw [shape, List.head?_cons]⟩
  rw [nameTokens, shape, intercalate_map_cons]
  rfl

theorem primary_inVector {name : String}
    (one : Primary levels tokens fun x => x.bare = .value node) :
    Primary (levels + 1) (groupTokens (tokens ++ .word "IN" :: nameTokens name))
      fun x => x.bare = .bool (.inVector .none node (.path .none name none)) := by
  have sum : Begins .sum levels tokens fun x => x.bare = .value node := .of_primary one
  suffices tested : Begins .comparison levels (tokens ++ .word "IN" :: nameTokens name)
      fun x => x.bare = .bool (.inVector .none node (.path .none name none)) from tested.group
  refine .of_reads sum.starts_append (fun _ _ _ _ => rfl) fun k rest stops => ?_
  rw [List.append_assoc, List.cons_append]
  have named : (nameTokens name ++ rest).head? ≠ some .openParen := by
    obtain ⟨word, more, shape, -⟩ := head_nameTokens name
    rw [shape]
    simp
  refine .congr (iff_of_eq (and_true _)) (sum.comparison_in fun first left isLeft => ?_)
  refine (reads_toValue isLeft).bind fun member sameMember => .skip_other named ?_
  refine (reads_path (stops.head_ne (by decide))).bind fun vector sameVector => .spanFrom fun span => ?_
  exact .pure (by rw [BoolExpr.bare, sameMember, sameVector])

/-! ### Lists of values -/

/-- Pieces, each with its levels, that are read as values one by one. -/
abbrev ItemsBegin (pieces : List (Nat × List Token)) (wanted : List ValueExpr) : Prop :=
  List.Forall₂ (fun piece wanted => Begins .disjunction piece.1 piece.2 fun x => x.bare = .value wanted)
    pieces wanted

theorem parses_valuesRest {pieces : List (Nat × List Token)} {wanted : List ValueExpr}
    (each : ItemsBegin pieces wanted) (nonempty : pieces ≠ []) {rounds : Nat}
    (enough : pieces.length ≤ rounds) :
    Parses (∀ piece ∈ pieces, piece.1 + 1 ≤ k) (valuesRest (productions k) rounds)
      ([.comma].intercalate (pieces.map Prod.snd) ++ .closeParen :: rest) rest
      fun found => ValueExpr.bares found = wanted := by
  induction each generalizing rounds with
  | nil => exact absurd rfl nonempty
  | @cons piece wanted pieces wanteds one others ih =>
    obtain ⟨rounds, rfl⟩ := Nat.exists_eq_add_of_le' (Nat.one_le_of_lt enough)
    cases others with
    | nil =>
      rw [List.map_singleton, List.intercalate_singleton]
      refine .congr (by simp) ((one.value (.cons (by decide))).finish fun first same => ?_)
      exact .skip (.pure (by simp [ValueExpr.bares, same]))
    | @cons second _ pieces _ two others =>
      have shape : [.comma].intercalate ((piece :: second :: pieces).map Prod.snd) ++
          .closeParen :: rest = piece.2 ++ (.comma ::
            ([.comma].intercalate ((second :: pieces).map Prod.snd) ++ .closeParen :: rest)) := by
        simp
      rw [shape]
      refine .congr List.forall_mem_cons.symm
        ((one.value (.cons (by decide))).both fun first same => ?_)
      refine .skip_other (by simp) (.skip ?_)
      refine (ih (by simp) (Nat.le_of_succ_le_succ enough)).finish fun others sameOthers => ?_
      exact .pure (by rw [ValueExpr.bares, same, sameOthers])

/-- Values between commas, up to the parenthesis that closes them. -/
theorem parses_values {pieces : List (Nat × List Token)} {wanted : List ValueExpr}
    (each : ItemsBegin pieces wanted) :
    Parses (∀ piece ∈ pieces, piece.1 + 1 ≤ k) (values (productions k))
      ([.comma].intercalate (pieces.map Prod.snd) ++ .closeParen :: rest) rest
      fun found => ValueExpr.bares found = wanted := by
  cases each with
  | nil => exact .congr (by simp) (.skip (.pure rfl))
  | @cons piece _ pieces _ one others =>
    have shape : [.comma].intercalate ((piece :: pieces).map Prod.snd) ++ .closeParen :: rest =
        piece.2 ++ (pieces.flatMap (fun piece => .comma :: piece.2) ++ .closeParen :: rest) := by
      rw [intercalate_map_cons, List.append_assoc]
    have enough := length_le_flatMap Token.comma Prod.snd pieces
    have all (rounds : Nat) (enough : (piece :: pieces).length ≤ rounds) :=
      @parses_valuesRest rest k _ _ (.cons one others) (List.cons_ne_nil _ _) rounds enough
    rw [shape] at all ⊢
    refine .skip_other (one.head_ne (by decide)) (.remaining (all _ ?_))
    simp only [List.length_cons, List.length_append]
    omega

theorem Begins.inList {pieces : List (Nat × List Token)} {wanted : List ValueExpr}
    (one : Begins .sum levels tokens fun x => x.bare = .value node) (each : ItemsBegin pieces wanted)
    (deepest : ∀ k, levels' ≤ k ↔ ∀ piece ∈ pieces, piece.1 + 1 ≤ k) :
    Begins .comparison (max levels levels')
      (tokens ++ .word "IN" :: groupTokens ([.comma].intercalate (pieces.map Prod.snd)))
      fun x => x.bare = .bool (.inList .none node wanted) := by
  refine .of_reads one.starts_append (fun _ _ _ _ => rfl) fun k rest _ => ?_
  have shape : tokens ++ .word "IN" :: groupTokens ([.comma].intercalate (pieces.map Prod.snd))
      ++ rest = tokens ++ .word "IN" :: (.openParen ::
        ([.comma].intercalate (pieces.map Prod.snd) ++ .closeParen :: rest)) := by
    simp [groupTokens]
  rw [shape]
  refine .congr (by rw [Nat.max_le, deepest]) (one.comparison_in fun first left isLeft => ?_)
  refine (reads_toValue isLeft).bind fun member sameMember => .skip ?_
  refine (parses_values each).finish fun found same => .spanFrom fun span => .pure ?_
  rw [BoolExpr.bare, sameMember, same]

/-- Values that are read one by one. -/
def ReadEach (nodes wanted : List ValueExpr) : Prop :=
  List.Forall₂ (fun node wanted => Primary node.levels node.tokens fun x => x.bare = .value wanted)
    nodes wanted

/-- The text of a value, with its levels. -/
def canonicalPiece (node : ValueExpr) : Nat × List Token := (node.levels, node.tokens)

theorem ReadEach.items {nodes wanted : List ValueExpr} (each : ReadEach nodes wanted) :
    ItemsBegin (nodes.map canonicalPiece) wanted :=
  List.forall₂_map_left_iff.2 (each.imp fun _ _ => .of_primary)

theorem tokensOfAll_eq_pieces (nodes : List ValueExpr) :
    ValueExpr.tokensOfAll nodes = (nodes.map canonicalPiece).map Prod.snd := by
  rw [ValueExpr.tokensOfAll_eq_map, List.map_map]
  rfl

theorem levelsOfAll_le_iff {nodes : List ValueExpr} :
    (∀ piece ∈ nodes.map canonicalPiece, piece.1 + 1 ≤ k) ↔ ValueExpr.levelsOfAll nodes ≤ k := by
  induction nodes with
  | nil => simp [ValueExpr.levelsOfAll]
  | cons node nodes ih =>
    rw [List.map_cons, List.forall_mem_cons, ih, ValueExpr.levelsOfAll, Nat.max_le]
    rfl

theorem reads_values {nodes wanted : List ValueExpr} (each : ReadEach nodes wanted) :
    Parses (ValueExpr.levelsOfAll nodes ≤ k) (values (productions k))
      ([.comma].intercalate (ValueExpr.tokensOfAll nodes) ++ .closeParen :: rest) rest
      fun found => ValueExpr.bares found = wanted :=
  tokensOfAll_eq_pieces nodes ▸ (parses_values each.items).congr levelsOfAll_le_iff

theorem primary_inList {nodes wanted : List ValueExpr}
    (one : Primary levels tokens fun x => x.bare = .value node) (each : ReadEach nodes wanted) :
    Primary (max levels (ValueExpr.levelsOfAll nodes) + 1)
      (groupTokens (tokens ++ .word "IN" ::
        groupTokens ([.comma].intercalate (ValueExpr.tokensOfAll nodes))))
      fun x => x.bare = .bool (.inList .none node wanted) := by
  rw [tokensOfAll_eq_pieces]
  exact (Begins.inList (.of_primary one) each.items fun _ => levelsOfAll_le_iff.symm).group

/-! ### Operators in parentheses -/

theorem primary_connective {op : Connective} {left right : BoolExpr}
    (one : Primary levels tokens fun x => (asPredicate x).bare = left)
    (two : Primary levels' tokens' fun x => (asPredicate x).bare = right) :
    Primary (max levels levels' + 1) (groupTokens (tokens ++ .word op.keyword :: tokens'))
      fun x => x.bare = .bool (.binary .none op left right) :=
  (Begins.connective (.of_primary one) (.of_primary two)).group

theorem primary_not {operand : BoolExpr}
    (one : Primary levels tokens fun x => (asPredicate x).bare = operand) :
    Primary (levels + 2) (groupTokens (.word "NOT" :: tokens))
      fun x => x.bare = .bool (.not .none operand) :=
  (Begins.not (.of_primary one)).group

theorem primary_arithmetic {op : Arithmetic}
    (one : Primary levels tokens fun x => x.bare = .value node)
    (two : Primary levels' tokens' fun x => x.bare = .value node') :
    Primary (max levels levels' + 1) (groupTokens (tokens ++ op.token :: tokens'))
      fun x => x.bare = .value (.binary .none op node node') :=
  (Begins.arithmetic (.of_primary one) (.of_primary two)).group

/-- A sign in front of anything but a numeral. -/
theorem primary_unary {sign : Sign} (one : Primary levels tokens fun x => x.bare = .value node)
    (wordy : sign = .minus → numberText? tokens.head? = none) :
    Primary (levels + 2) (groupTokens (sign.token :: tokens))
      fun x => x.bare = .value (.unary .none sign node) :=
  (Begins.unary (.of_primary one) wordy).group

end Reading.ExpressionReader

end EventQuery
