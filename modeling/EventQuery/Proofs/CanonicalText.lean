import EventQuery.Proofs.RoundTrip
import EventQuery.Proofs.Spelling
import EventQuery.Proofs.Tree

/-!
When the text of an expression that was read can be read again, and when it is then
written as before.
-/
namespace EventQuery

open Reading
open Reading.ExpressionReader (Begins Level castNode deeper_expression isLiteralCast StopsAt whole)

/-! ### Reading a whole text -/

section

variable {level : Level} {levels : Nat} {tokens : List Token} {good : Expr → Prop}

theorem Reading.ExpressionReader.parses_whole (one : Begins level levels tokens good) :
    Parses (levels < nestingLimit) whole tokens [] good := by
  have nothing {least : Nat} : StopsAt least [] := .nil
  have opened := deeper_expression (k := nestingLimit) fun k => one.expression (k := k) nothing
  rw [List.append_nil] at opened
  exact (opened.congr Nat.succ_le_iff).finish fun value good => .peek (.pure good)

/-- A text is read exactly if it needs fewer levels than the reader allows. -/
theorem readExpr_of_begins {text : String} (lexes : Lexes lexeme Apart text.toList tokens)
    (one : Begins level levels tokens good) :
    (levels < nestingLimit → ∃ x, readExpr text = .ok x ∧ good x) ∧
      (¬ levels < nestingLimit → ∃ cause, readExpr text = .error cause) := by
  obtain ⟨placed, scans, same⟩ := lexes.scan (by simp [Apart]) fun piece =>
    "unexpected character " ++ Text.Printable.quoted piece
  have unfolded : readExpr text = ExpressionReader.whole.run placed text.utf8ByteSize := by
    rw [readExpr, tokenize, scans]
    rfl
  rw [unfolded]
  exact (ExpressionReader.parses_whole one).run same

end

/-- The text of an expression is read, as what it stands for, exactly if it needs fewer levels
than the reader allows. -/
theorem Expr.Spelled.reads_text {expr : Expr} (spelled : expr.Spelled) :
    (expr.levels < nestingLimit → ∃ x, readExpr expr.text = .ok x ∧ expr.ReadAs x) ∧
      (¬ expr.levels < nestingLimit → ∃ cause, readExpr expr.text = .error cause) :=
  readExpr_of_begins spelled.lexes (.of_primary spelled.primary : Begins .primary _ _ _)

/-! ### The text of what is read -/

theorem ValueExpr.texts_map {nodes : List ValueExpr} {change : ValueExpr → ValueExpr}
    (keeps : ∀ node ∈ nodes, (change node).text = node.text) :
    texts (nodes.map change) = texts nodes := by
  rw [texts_eq_map, texts_eq_map, List.map_map]
  exact List.map_congr_left keeps

theorem Expr.text_bare (expr : Expr) : expr.bare.text = expr.text := by
  induction expr using Expr.byChildren with
  | node expr ih =>
    cases expr with
    | bool node =>
      cases node <;>
        simp_all [BoolExpr.children, Expr.children, Expr.bare, Expr.text, BoolExpr.bare,
          BoolExpr.text, ValueExpr.texts_map, ValueExpr.bares_eq_map]
    | value node =>
      cases node with
      | aggregation span op count target condition scope quanta scopePath =>
        cases count <;> cases condition <;> cases quanta <;>
          simp_all [ValueExpr.children, Expr.children, Expr.bare, Expr.text, ValueExpr.bare,
            ValueExpr.text]
      | _ =>
        simp_all [ValueExpr.children, Expr.children, Expr.bare, Expr.text, ValueExpr.bare,
          ValueExpr.text, ValueExpr.texts_map, ValueExpr.bares_eq_map]

/-- What is read of the text of an expression is written like the tree it stands for. -/
theorem Expr.ReadAs.text_eq {expr x : Expr} (read : expr.ReadAs x) : x.text = expr.reread.text := by
  cases expr with
  | bool node =>
    have kept : (asPredicate x).text = x.text := by
      unfold asPredicate
      split <;> rfl
    have same : (Expr.bool (asPredicate x)).bare = .bool node.reread := congrArg Expr.bool read
    rw [← kept, ← Expr.text, ← Expr.text_bare, same, Expr.reread]
  | value node =>
    rw [← Expr.text_bare, show x.bare = .value node.reread from read, Expr.reread]

theorem Constant.text_ofInteger (word : Int64) :
    (Constant.ofInteger word).text = Constant.signedText word.toInt := by
  cases narrow : Number.Width.int32? word.toInt with
  | none => simp [Constant.ofInteger_wide narrow, Constant.text, narrow]
  | some value =>
    rw [Constant.ofInteger, narrow, ← Number.Width.toInt_of_int32? narrow]
    rfl

theorem Constant.signedText_neg {n : Int} (positive : 0 < n) :
    Constant.signedText (-n) = "(-" ++ Constant.signedText n ++ ")" := by
  apply String.toList_injective
  rw [String.toList_append, String.toList_append, toList_signedText, toList_signedText,
    if_pos (by omega), if_neg (by omega), Int.natAbs_neg]
  simp

/-- A minus that becomes part of a numeral other than the integer `0` is written in front of it. -/
theorem Constant.text_of_negated? {value negated : Constant} (known : value.negated? = some negated)
    (other : value ≠ .integer 0) : negated.text = "(-" ++ value.text ++ ")" := by
  cases value <;> simp only [Constant.negated?, reduceCtorEq] at known
  case integer value =>
    split_ifs at known with negative
    have nonzero : value.toInt ≠ 0 := fun zero =>
      other (congrArg Constant.integer (Int32.toInt_inj.1 zero))
    have small := value.toInt_lt
    cases known
    rw [text_ofInteger, Int64.toInt_ofInt_of_le (by omega) (by omega)]
    exact signedText_neg (by omega)
  case long value =>
    split_ifs at known with outside
    obtain ⟨natural, wide⟩ := not_or.1 outside
    have small := value.toInt_lt
    have nonzero : value.toInt ≠ 0 := fun zero => wide (by rw [zero]; rfl)
    cases known
    rw [text_ofInteger, Int64.toInt_ofInt_of_le (by omega) (by omega),
      signedText_neg (by omega), Constant.text, if_neg wide]
  case double value =>
    split at known
    · rename_i parts finite
      split_ifs at known with negative
      have natural : parts.negative = false := by simpa using negative
      cases known
      have flipped := Number.Binary64.kind_neg finite
      rw [natural, Bool.not_false] at flipped
      apply String.toList_injective
      simp [Constant.text, Constant.doubleText, finite, flipped, Number.Binary64.isNegative,
        Number.Layout.write, natural, toString_text]
      rfl
    · cases known

/-- The node is written like what is read of it: no minus stands in front of the integer `0`,
and a cast that is read as a constant is how that constant is written. -/
def Expr.WrittenAsRead : Expr → Prop
  | .value (.unary _ .minus (.constant _ (.integer number))) => number ≠ 0
  | .value (.cast _ target operand) => ∀ span value result,
      operand.reread = .constant span value → isLiteralCast target = true →
        value.cast target = .ok result → result.text = Constant.castText value.text target
  | _ => True

theorem ValueExpr.text_castNode {target : DataType} {operand : ValueExpr}
    (kept : ∀ span value result, operand = .constant span value → isLiteralCast target = true →
      value.cast target = .ok result → result.text = Constant.castText value.text target) :
    (castNode .none target operand).text = Constant.castText operand.text target := by
  unfold castNode
  split
  · split_ifs with isLiteral
    · split
      · exact kept _ _ _ rfl isLiteral ‹_›
      · rfl
    · rfl
  · rfl

theorem Expr.text_reread {expr : Expr} (kept : expr.Everywhere Expr.WrittenAsRead) :
    expr.reread.text = expr.text := by
  induction kept with
  | @node expr here _ ih =>
    cases expr with
    | bool node =>
      cases node with
      | inVector span value vector =>
        have same := Expr.text_bare (.value vector)
        simp_all [BoolExpr.children, Expr.children, Expr.bare, Expr.reread, Expr.text,
          BoolExpr.reread, BoolExpr.text]
      | _ =>
        simp_all [BoolExpr.children, Expr.children, Expr.reread, Expr.text, BoolExpr.reread,
          BoolExpr.text, ValueExpr.texts_map, ValueExpr.rereads_eq_map]
    | value node =>
      cases node with
      | aggregation span op count target condition scope quanta scopePath =>
        cases count <;> cases condition <;> cases quanta <;>
          simp_all [ValueExpr.children, Expr.children, Expr.reread, Expr.text, ValueExpr.reread,
            ValueExpr.text]
      | unary span sign operand =>
        have same : operand.reread.text = operand.text :=
          ih (.value operand) (by simp [Expr.children, ValueExpr.children])
        simp only [Expr.reread, Expr.text, ValueExpr.reread]
        cases known : ValueExpr.negated? sign operand with
        | none => simp [ValueExpr.text, same]
        | some value =>
          obtain ⟨rfl, place, literal, rfl, negates⟩ := ValueExpr.exists_of_negated? known
          have nonzero : literal ≠ .integer 0 := by
            rintro rfl
            exact here rfl
          exact Constant.text_of_negated? negates nonzero
      | cast span target operand =>
        have same : operand.reread.text = operand.text :=
          ih (.value operand) (by simp [Expr.children, ValueExpr.children])
        simp only [Expr.reread, Expr.text, ValueExpr.reread, ValueExpr.text]
        rw [ValueExpr.text_castNode here, same]
      | _ =>
        simp_all [ValueExpr.children, Expr.children, Expr.reread, Expr.text, ValueExpr.reread,
          ValueExpr.text, ValueExpr.texts_map, ValueExpr.rereads_eq_map]

/-! ### Reading a text again -/

/-- An expression that was read is written as a text that reads again exactly if it needs fewer
levels than the reader allows. What is read then stands for the same tree, and is written
as the same text if every node is written like what is read of it. -/
theorem readExpr_text {text : String} {expr : Expr} (read : readExpr text = .ok expr) :
    ((∃ x, readExpr expr.text = .ok x) ↔ expr.levels < nestingLimit) ∧
      ∀ x, readExpr expr.text = .ok x → expr.ReadAs x ∧ x.text = expr.reread.text ∧
        (expr.Everywhere Expr.WrittenAsRead → x.text = expr.text) := by
  obtain ⟨succeeds, fails⟩ := (Expr.spelled_of_readExpr read).reads_text
  have only (x : Expr) (again : readExpr expr.text = .ok x) : expr.levels < nestingLimit := by
    by_contra tooDeep
    obtain ⟨cause, complains⟩ := fails tooDeep
    cases again.symm.trans complains
  refine ⟨⟨fun ⟨x, again⟩ => only x again, fun fits => ?_⟩, fun x again => ?_⟩
  · obtain ⟨x, again, -⟩ := succeeds fits
    exact ⟨x, again⟩
  · obtain ⟨found, again', good⟩ := succeeds (only x again)
    obtain rfl : x = found := Except.ok.inj (again.symm.trans again')
    exact ⟨good, good.text_eq, fun kept => good.text_eq.trans (Expr.text_reread kept)⟩

/-- The negated numeral is written as one number, and stays so. -/
theorem readExpr_text_sum :
    let expr : Expr := .value (.binary ⟨0, 8⟩ .add
      (.unary ⟨0, 4⟩ .minus (.constant ⟨2, 3⟩ (.integer 5))) (.path ⟨7, 8⟩ "a" none))
    readExpr "-(5) + a" = .ok expr ∧ expr.text = "((-5) + a)" ∧
      ∃ x, readExpr expr.text = .ok x ∧ expr.ReadAs x ∧ x.text = expr.text := by
  intro expr
  have scans : tokenize "-(5) + a" = .ok [⟨.minus, ⟨0, 1⟩⟩, ⟨.openParen, ⟨1, 2⟩⟩,
      ⟨.integer "5", ⟨2, 3⟩⟩, ⟨.closeParen, ⟨3, 4⟩⟩, ⟨.plus, ⟨5, 6⟩⟩, ⟨.word "a", ⟨7, 8⟩⟩] := by
    decide +kernel
  have read : readExpr "-(5) + a" = .ok expr := by
    rw [readExpr, scans]
    rfl
  have kept : expr.Everywhere Expr.WrittenAsRead := by
    have numeral : Expr.Everywhere Expr.WrittenAsRead (.value (.constant ⟨2, 3⟩ (.integer 5))) :=
      .node trivial (by simp [Expr.children, ValueExpr.children])
    have name : Expr.Everywhere Expr.WrittenAsRead (.value (.path ⟨7, 8⟩ "a" none)) :=
      .node trivial (by simp [Expr.children, ValueExpr.children])
    have negated : Expr.Everywhere Expr.WrittenAsRead
        (.value (.unary ⟨0, 4⟩ .minus (.constant ⟨2, 3⟩ (.integer 5)))) :=
      .node (by decide : (5 : Int32) ≠ 0) (by simpa [Expr.children, ValueExpr.children] using numeral)
    exact .node trivial (List.forall_mem_cons.2 ⟨negated, List.forall_mem_singleton.2 name⟩)
  obtain ⟨succeeds, again⟩ := readExpr_text read
  obtain ⟨x, found⟩ := succeeds.2 (by decide +kernel)
  obtain ⟨good, -, same⟩ := again x found
  exact ⟨read, by decide +kernel, x, found, good, same kept⟩

/-- A minus in front of the integer zero is lost, a cast of a negated numeral becomes the
constant it gives, and 128 signs in parentheses of their own need more levels than there are. -/
theorem readExpr_text_rewritten :
    ((readExpr "-(0)").map Expr.text = .ok "(-0)" ∧ (readExpr "(-0)").map Expr.text = .ok "0") ∧
    ((readExpr "CAST(-(5) AS DOUBLE)").map Expr.text = .ok "CAST((-5) AS DOUBLE)" ∧
      (readExpr "CAST((-5) AS DOUBLE)").map Expr.text = .ok "(-5.0)") ∧
    ∃ expr, readExpr (String.ofList (List.replicate 128 '-') ++ "a") = .ok expr ∧
      ∃ cause, readExpr expr.text = .error cause := by
  refine ⟨by decide +kernel, by decide +kernel, ?_⟩
  have deep : (readExpr (String.ofList (List.replicate 128 '-') ++ "a")).map Expr.levels = .ok 256 := by
    decide +kernel
  obtain ⟨expr, read, levels⟩ := Outcome.map_eq_ok.1 deep
  refine ⟨expr, read, (Expr.spelled_of_readExpr read).reads_text.2 ?_⟩
  rw [levels]
  decide

end EventQuery
