import EventQuery.Proofs.ExpressionTokens
import EventQuery.Proofs.Production

/-!
How the productions of the grammar nest. Each of them ends in front of the tokens that bind
more loosely, so that a primary expression is read as one by all of them; what stands in
parentheses is read one level deeper.
-/
namespace EventQuery.Reading.ExpressionReader

variable {rest before after tokens : List Token} {fits fits' : Prop} {good : Expr → Prop}
  {levels k : Nat} {α : Type}

/-! ### Where productions end -/

/-- How loosely a token binds what is in front of it: names go on at 0; signed operands end
in front of 1 and more, products of 2, sums of 3, comparisons of 4, conjunctions of 5, and
expressions of 6. -/
def looseness : Token → Nat
  | .dot | .openParen => 0
  | .star | .slash | .percent => 1
  | .plus | .minus => 2
  | .equal | .unequal | .less | .lessEqual | .greater | .greaterEqual => 3
  | .word word =>
    if ["NOT", "BETWEEN", "IS", "IN"].contains word then 3
    else if word = "AND" then 4
    else if word = "OR" then 5
    else 6
  | _ => 6

/-- The next token binds at least so loosely. -/
def StopsAt (least : Nat)
    (rest : List Token) : Prop := ∀ token ∈ rest.head?, least ≤ looseness token

namespace StopsAt

variable {least : Nat}

theorem nil : StopsAt least [] := by
  rintro token ⟨⟩

theorem cons {token : Token} (loose : least ≤ looseness token) : StopsAt least (token :: rest) := by
  rintro _ ⟨⟩
  exact loose

theorem mono {less : Nat} (stops : StopsAt least rest) (le : less ≤ least) : StopsAt less rest :=
  fun token found => le.trans (stops token found)

theorem head_ne {token : Token} (stops : StopsAt least rest) (tight : looseness token < least) :
    rest.head? ≠ some token :=
  fun found => absurd (stops token found) (Nat.not_le.2 tight)

private theorem bind_eq_none {α : Type} {op? : Token → Option α} (stops : StopsAt least rest)
    (tight : ∀ token, (op? token).isSome → looseness token < least) :
    rest.head?.bind op? = none := by
  cases found : rest.head? with
  | none => rfl
  | some token =>
    rw [Option.bind_some, ← Option.not_isSome_iff_eq_none]
    exact fun isSome => absurd (stops token found) (Nat.not_le.2 (tight token isSome))

theorem factorOp? (stops : StopsAt 2 rest) : rest.head?.bind factorOp? = none :=
  stops.bind_eq_none fun token => by cases token <;> simp [ExpressionReader.factorOp?, looseness]

theorem termOp? (stops : StopsAt 3 rest) : rest.head?.bind termOp? = none :=
  stops.bind_eq_none fun token => by cases token <;> simp [ExpressionReader.termOp?, looseness]

theorem relation? (stops : StopsAt 4 rest) : rest.head?.bind relation? = none :=
  stops.bind_eq_none fun token => by cases token <;> simp [ExpressionReader.relation?, looseness]

end StopsAt

/-! ### Steps -/

theorem expect_token {token : Token} {next : Unit → Production α} {P : α → Prop}
    (further : Parses fits (next ()) rest after P) :
    Parses fits (expect token >>= next) (token :: rest) after P :=
  .bind (P := fun _ => True) (.skip (.pure trivial)) fun _ _ => further

theorem expect_word {word : String} {next : Unit → Production α} {P : α → Prop}
    (further : Parses fits (next ()) rest after P) :
    Parses fits (expectWord word >>= next) (.word word :: rest) after P :=
  .bind (P := fun _ => True) (.skip (.pure trivial)) fun _ _ => further

theorem nextIsWord_eq {word : String} {next : Bool → Production α} {P : α → Prop}
    (further : Parses fits (next (before.head? = some (.word word))) before after P) :
    Parses fits (nextIsWord word >>= next) before after P := by
  refine .bind (P := (· = decide (before.head? = some (.word word)))) ?_ fun _ same => same ▸ further
  exact .peek (.pure rfl)

theorem reads_toValue {expr : Expr} {node : ValueExpr} (same : expr.bare = .value node) :
    Reads (toValue expr) rest rest fun value => value.bare = node := by
  cases expr with
  | bool => cases same
  | value value => exact .pure (Expr.value.inj same)

/-! ### The end of a chain -/

theorem reads_chainRest {operand : Production Expr} {op? : Token → Option Arithmetic}
    {first rounds : Nat} {left : Expr} (stops : rest.head?.bind op? = none) :
    Reads (chainRest operand op? first rounds left) rest rest (· = left) := by
  cases rounds with
  | zero => exact .pure rfl
  | succ rounds =>
    refine .peek ?_
    rw [stops]
    exact .pure rfl

theorem reads_connectedRest {operand : Production Expr} {op : Connective} {first rounds : Nat}
    {left : Expr} (stops : rest.head? ≠ some (.word op.keyword)) :
    Reads (connectedRest operand op first rounds left) rest rest (· = left) := by
  cases rounds with
  | zero => exact .pure rfl
  | succ rounds => exact .skip_other stops (.pure rfl)

/-! ### From one production to the next -/

theorem negation_of_comparison {deeper : Deeper}
    (parses : Parses fits (comparison deeper) before rest good)
    (plain : before.head? ≠ some (.word "NOT")) : Parses fits (negation deeper) before rest good :=
  .start fun _ => .skip_other plain parses

theorem comparison_of_sum {deeper : Deeper} (parses : Parses fits (sum deeper) before rest good)
    (stops : StopsAt 4 rest) : Parses fits (comparison deeper) before rest good := by
  refine .start fun first => parses.finish fun left isGood => .peek ?_
  rw [stops.relation?]
  have other (word : String) (tight : looseness (.word word) < 4) :
      rest.head? ≠ some (.word word) := stops.head_ne tight
  refine nextIsWord_eq (.second ?_)
  simp only [other "NOT" (by decide), decide_false, Bool.false_and, Bool.false_eq_true,
    if_false]
  refine .skip_other (other _ (by decide)) (.skip_other (other _ (by decide)) ?_)
  exact .skip_other (other _ (by decide)) (.pure isGood)

/-! ### Primaries -/

/-- In front of what ends a signed operand, the tokens are a primary expression with a good
value, which takes so many levels. It starts with no sign, negation or closing parenthesis. -/
structure Primary (levels : Nat) (tokens : List Token) (good : Expr → Prop) : Prop where
  starts : ∃ first more, tokens = first :: more ∧
    [Token.plus, .minus, .word "NOT", .closeParen].contains first = false
  parses : ∀ k rest, StopsAt 1 rest →
    Parses (levels ≤ k) (primary (productions k)) (tokens ++ rest) rest good

namespace Primary

theorem mono {good' : Expr → Prop} (one : Primary levels tokens good)
    (better : ∀ x, good x → good' x) : Primary levels tokens good' :=
  ⟨one.starts, fun k rest stops => (one.parses k rest stops).mono better⟩

end Primary

/-! ### Deeper -/

/-- A production one level deeper takes one level more. -/
private theorem deeper_level (deeper : Nat → Production Expr) {inside : Nat → Production Expr}
    (none : deeper 0 = Reader.tooDeep) (some : ∀ k, deeper (k + 1) = inside k)
    (parses : ∀ k, Parses (levels ≤ k) (inside k) before after good) :
    Parses (levels + 1 ≤ k) (deeper k) before after good := by
  cases k with
  | zero => exact none ▸ .congr (by simp) .tooDeep
  | succ k => exact some k ▸ (parses k).congr Nat.succ_le_succ_iff.symm

theorem deeper_expression
    (inside : ∀ k, Parses (levels ≤ k) (expression (productions k)) before after good) :
    Parses (levels + 1 ≤ k) (productions k).expression before after good :=
  deeper_level (fun k => (productions k).expression) rfl (fun _ => rfl) inside

theorem deeper_negation
    (inside : ∀ k, Parses (levels ≤ k) (negation (productions k)) before after good) :
    Parses (levels + 1 ≤ k) (productions k).negation before after good :=
  deeper_level (fun k => (productions k).negation) rfl (fun _ => rfl) inside

theorem deeper_signed
    (inside : ∀ k, Parses (levels ≤ k) (signed (productions k)) before after good) :
    Parses (levels + 1 ≤ k) (productions k).signed before after good :=
  deeper_level (fun k => (productions k).signed) rfl (fun _ => rfl) inside

/-- An expression in parentheses is a primary expression. -/
theorem Primary.group
    (inside : ∀ k rest, Parses (levels ≤ k) (ExpressionReader.expression (productions k))
      (tokens ++ .closeParen :: rest) (.closeParen :: rest) good) :
    Primary (levels + 1) (groupTokens tokens) good where
  starts := ⟨.openParen, _, rfl, by decide⟩
  parses := by
    intro k rest _
    have shape : groupTokens tokens ++ rest = .openParen :: (tokens ++ .closeParen :: rest) := by
      simp [groupTokens]
    rw [shape]
    refine .place fun span => .peek (.advance ?_)
    refine (deeper_expression fun k => inside k rest).finish fun expr isGood => ?_
    exact expect_token (.pure isGood)

end EventQuery.Reading.ExpressionReader
