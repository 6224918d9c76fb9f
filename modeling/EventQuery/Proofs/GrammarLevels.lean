import EventQuery.Proofs.Precedence

/-!
The levels of the grammar. A production reads the tokens of its own level and of all tighter
ones. Operators between operands make chains, in which each further operand is read behind what
was read before; so chains are grouped to the left.
-/
namespace EventQuery

open Reading Reading.ExpressionReader

namespace Reading.ExpressionReader

/-- The productions that operators belong to, loosest first. -/
inductive Level where
  | disjunction | conjunction | negation | comparison | sum | product | signed | primary
  deriving DecidableEq, Repr

namespace Level

/-- How tightly the level binds. -/
def rank : Level → Nat
  | disjunction => 0
  | conjunction => 1
  | negation => 2
  | comparison => 3
  | sum => 4
  | product => 5
  | signed => 6
  | primary => 7

/-- The level of what a production of the level starts with. -/
def tighter : Level → Level
  | disjunction => conjunction
  | conjunction => negation
  | negation => comparison
  | comparison => sum
  | sum => product
  | product => signed
  | signed => primary
  | primary => primary

def production : Level → Deeper → Production Expr
  | disjunction => ExpressionReader.expression
  | conjunction => fun deeper => connected (ExpressionReader.negation deeper) .and
  | negation => ExpressionReader.negation
  | comparison => ExpressionReader.comparison
  | sum => ExpressionReader.sum
  | product => ExpressionReader.product
  | signed => ExpressionReader.signed
  | primary => ExpressionReader.primary

/-- How a chain of the level goes on behind the operands that were read; productions of the
other levels are through then. -/
def goOn (level : Level) (deeper : Deeper) (first rounds : Nat) (read : Expr) : Production Expr :=
  match level with
  | disjunction => connectedRest (conjunction.production deeper) .or first rounds read
  | conjunction => connectedRest (negation.production deeper) .and first rounds read
  | sum => chainRest (product.production deeper) termOp? first rounds read
  | product => chainRest (signed.production deeper) factorOp? first rounds read
  | _ => return read

/-- How loosely a token has to bind to end a production of the level. -/
def ends : Level → Nat
  | disjunction => 6
  | conjunction => 5
  | negation => 4
  | comparison => 4
  | sum => 3
  | product => 2
  | signed => 1
  | primary => 1

/-- How loosely a token has to bind to end an operand of a chain of the level. -/
def endsOperand : Level → Nat
  | disjunction => conjunction.ends
  | conjunction => negation.ends
  | sum => product.ends
  | product => signed.ends
  | level => level.ends

/-- Tokens that nothing of the level starts with. -/
def excluded : Level → List Token
  | disjunction | conjunction | negation => [.closeParen]
  | comparison | sum | product | signed => [.word "NOT", .closeParen]
  | primary => [.plus, .minus, .word "NOT", .closeParen]

theorem rank_le (level : Level) : level.rank ≤ 7 := by
  cases level <;> decide

theorem rank_tighter {level : Level} (loose : level.rank < 7) :
    level.tighter.rank = level.rank + 1 := by
  cases level <;> first | rfl | exact absurd loose (by decide)

theorem eq_of_rank {level other : Level} (same : level.rank = other.rank) : level = other := by
  cases level <;> cases other <;> first | rfl | exact absurd same (by decide)

theorem endsOperand_le (level : Level) : level.endsOperand ≤ level.ends := by
  cases level <;> decide

theorem excluded_tighter {level : Level} {token : Token}
    (other : level.tighter.excluded.contains token = false) :
    level.excluded.contains token = false := by
  cases level <;> simp_all [tighter, excluded]

theorem reads_goOn {level : Level} {deeper : Deeper} {first rounds : Nat} {read : Expr}
    {rest : List Token} (stops : StopsAt level.ends rest) :
    Reads (level.goOn deeper first rounds read) rest rest (· = read) := by
  cases level with
  | disjunction => exact reads_connectedRest (stops.head_ne (by decide))
  | conjunction => exact reads_connectedRest (stops.head_ne (by decide))
  | sum => exact reads_chainRest stops.termOp?
  | product => exact reads_chainRest stops.factorOp?
  | _ => exact .pure rfl

end Level

variable {level position : Level} {levels levels' k : Nat} {tokens tokens' rest : List Token}
  {good good' : Expr → Prop} {node node' : ValueExpr}

/-- A production of the level starts by reading the tokens, which takes so many levels, and then
goes on with what follows. -/
structure Begins (level : Level) (levels : Nat) (tokens : List Token) (good : Expr → Prop) :
    Prop where
  starts : ∃ first more, tokens = first :: more ∧ level.excluded.contains first = false
  parses : ∀ {k rest after} {fits : Prop} {Q : Expr → Prop}, StopsAt level.endsOperand rest →
    (∀ first rounds read, good read → rest.length ≤ rounds →
      Parses fits (level.goOn (productions k) first rounds read) rest after Q) →
    Parses (levels ≤ k ∧ fits) (level.production (productions k)) (tokens ++ rest) after Q

namespace Begins

theorem head_ne (one : Begins level levels tokens good) {token : Token}
    (other : level.excluded.contains token = true) : (tokens ++ rest).head? ≠ some token := by
  obtain ⟨first, more, rfl, possible⟩ := one.starts
  rintro ⟨⟩
  rw [other] at possible
  cases possible

theorem starts_append (one : Begins level levels tokens good) {more : List Token} :
    ∃ first others, tokens ++ more = first :: others ∧ level.excluded.contains first = false := by
  obtain ⟨first, others, rfl, possible⟩ := one.starts
  exact ⟨first, _, rfl, possible⟩

/-- In front of what ends it the production reads nothing else. -/
theorem reads (one : Begins level levels tokens good) (stops : StopsAt level.ends rest) :
    Parses (levels ≤ k) (level.production (productions k)) (tokens ++ rest) rest good := by
  refine .congr (iff_of_eq (and_true _)) (one.parses (stops.mono level.endsOperand_le) ?_)
  intro first rounds read isGood _
  exact (Level.reads_goOn stops).mono fun value same => same ▸ isGood

theorem mono (one : Begins level levels tokens good) (better : ∀ x, good x → good' x) :
    Begins level levels tokens good' where
  starts := one.starts
  parses stops further := one.parses stops fun first rounds read isGood enough =>
    further first rounds read (better read isGood) enough

/-- A production that is no chain is through with what it reads. -/
theorem of_reads
    (starts : ∃ first more, tokens = first :: more ∧ level.excluded.contains first = false)
    (through : ∀ deeper first rounds read, level.goOn deeper first rounds read = return read)
    (reads : ∀ k rest, StopsAt level.endsOperand rest →
      Parses (levels ≤ k) (level.production (productions k)) (tokens ++ rest) rest good) :
    Begins level levels tokens good where
  starts := starts
  parses := by
    intro k rest after fits Q stops further
    rw [← bind_pure (level.production (productions k))]
    refine (reads k rest stops).both fun read isGood => ?_
    have last := further 0 rest.length read isGood (Nat.le_refl _)
    rwa [through] at last

/-! ### Looser levels -/

/-- What is of the next tighter level is of the level. -/
theorem loosen (one : Begins level.tighter levels tokens good) :
    Begins level levels tokens good := by
  have starts : ∃ first more, tokens = first :: more ∧ level.excluded.contains first = false := by
    obtain ⟨first, more, shape, possible⟩ := one.starts
    exact ⟨first, more, shape, Level.excluded_tighter possible⟩
  cases level
  case negation =>
    exact .of_reads starts (fun _ _ _ _ => rfl) fun k rest stops =>
      negation_of_comparison (one.reads stops) (one.head_ne (by decide))
  case comparison =>
    exact .of_reads starts (fun _ _ _ _ => rfl) fun k rest stops =>
      comparison_of_sum (one.reads (stops.mono (by decide))) stops
  case signed =>
    refine .of_reads starts (fun _ _ _ _ => rfl) fun k rest stops => .start fun first => .peek ?_
    have plus : (tokens ++ rest).head? ≠ some .plus := one.head_ne (by decide)
    have minus : (tokens ++ rest).head? ≠ some .minus := one.head_ne (by decide)
    split
    · exact absurd ‹_› minus
    · exact absurd ‹_› plus
    · exact one.reads stops
  case primary => exact one
  -- a chain of one operand, which may go on
  all_goals
    refine ⟨starts, fun stops further => .start fun first => ?_⟩
    exact (one.reads stops).both fun read isGood =>
      .remaining (further first _ read isGood (Nat.le_refl _))

/-- What binds tightly enough for a position may stand there. -/
theorem climb (one : Begins level levels tokens good) (tight : position.rank ≤ level.rank) :
    Begins position levels tokens good := by
  obtain ⟨steps, distance⟩ := Nat.exists_eq_add_of_le tight
  induction steps generalizing position with
  | zero => exact Level.eq_of_rank distance ▸ one
  | succ steps ih =>
    have loose : position.rank < 7 := by
      have bound := level.rank_le
      omega
    have next := Level.rank_tighter loose
    exact (ih (by omega) (by omega) : Begins position.tighter levels tokens good).loosen

/-- A primary expression may stand anywhere. -/
theorem of_primary (one : Primary levels tokens good) : Begins position levels tokens good := by
  have tightest : Begins .primary levels tokens good :=
    .of_reads one.starts (fun _ _ _ _ => rfl) one.parses
  exact tightest.climb position.rank_le

/-- Everything is an expression in front of what ends one. -/
theorem expression (one : Begins level levels tokens good) (stops : StopsAt 6 rest) :
    Parses (levels ≤ k) (expression (productions k)) (tokens ++ rest) rest good := by
  have whole : Begins .disjunction levels tokens good := one.climb (Nat.zero_le _)
  exact whole.reads stops

/-- In parentheses everything is a primary expression. -/
theorem group (one : Begins level levels tokens good) :
    Primary (levels + 1) (groupTokens tokens) good :=
  .group fun _ _ => one.expression (.cons (by decide))

end Begins

theorem Primary.expression (one : Primary levels tokens good) (stops : StopsAt 6 rest) :
    Parses (levels ≤ k) (ExpressionReader.expression (productions k)) (tokens ++ rest) rest good :=
  (Begins.of_primary one : Begins .primary levels tokens good).expression stops

end Reading.ExpressionReader

/-! ### Operators -/

open Reading.ExpressionReader (Level)

def Connective.level : Connective → Level
  | and => .conjunction
  | or => .disjunction

def Arithmetic.level : Arithmetic → Level
  | add | subtract => .sum
  | multiply | divide | modulo => .product

namespace Reading.ExpressionReader.Begins

variable {levels levels' k : Nat} {tokens tokens' rest : List Token} {node node' : ValueExpr}

/-- A connective behind what was read, and a tighter operand. -/
theorem connective {op : Connective} {left right : BoolExpr}
    (one : Begins op.level levels tokens fun x => (asPredicate x).bare = left)
    (two : Begins op.level.tighter levels' tokens' fun x => (asPredicate x).bare = right) :
    Begins op.level (max levels levels') (tokens ++ .word op.keyword :: tokens')
      fun x => x.bare = .bool (.binary .none op left right) where
  starts := one.starts_append
  parses := by
    intro k rest after fits Q stops further
    have chained (first rounds : Nat) (read : Expr) : op.level.goOn (productions k) first rounds read =
        connectedRest (op.level.tighter.production (productions k)) op first rounds read := by
      cases op <;> rfl
    have same : op.level.tighter.ends = op.level.endsOperand := by cases op <;> rfl
    have loose : op.level.endsOperand ≤ looseness (.word op.keyword) := by cases op <;> decide
    rw [List.append_assoc, List.cons_append]
    refine .congr (by rw [Nat.max_le, and_assoc]) (one.parses (.cons loose) ?_)
    intro first rounds read isLeft enough
    obtain ⟨rounds, rfl⟩ := Nat.exists_eq_add_of_le' (Nat.one_le_of_lt enough)
    rw [chained]
    refine .skip ((two.reads (same ▸ stops)).both fun value isRight => .spanFrom fun span => ?_)
    rw [← chained]
    refine further first rounds _ ?_ ?_
    · rw [Expr.bare, BoolExpr.bare, isLeft, isRight]
    · simp only [List.length_cons, List.length_append] at enough
      omega

/-- An arithmetic operator behind what was read, and a tighter operand. -/
theorem arithmetic {op : Arithmetic}
    (one : Begins op.level levels tokens fun x => x.bare = .value node)
    (two : Begins op.level.tighter levels' tokens' fun x => x.bare = .value node') :
    Begins op.level (max levels levels') (tokens ++ op.token :: tokens')
      fun x => x.bare = .value (.binary .none op node node') where
  starts := one.starts_append
  parses := by
    intro k rest after fits Q stops further
    obtain ⟨op?, known, chained⟩ : ∃ op?, op? op.token = some op ∧ ∀ first rounds read,
        op.level.goOn (productions k) first rounds read =
          chainRest (op.level.tighter.production (productions k)) op? first rounds read := by
      cases op <;> exact ⟨_, rfl, fun _ _ _ => rfl⟩
    have same : op.level.tighter.ends = op.level.endsOperand := by cases op <;> rfl
    have loose : op.level.endsOperand ≤ looseness op.token := by cases op <;> decide
    rw [List.append_assoc, List.cons_append]
    refine .congr (by rw [Nat.max_le, and_assoc]) (one.parses (.cons loose) ?_)
    intro first rounds read isLeft enough
    obtain ⟨rounds, rfl⟩ := Nat.exists_eq_add_of_le' (Nat.one_le_of_lt enough)
    rw [chained]
    refine .peek ?_
    rw [List.head?_cons, Option.bind_some, known]
    refine .advance ((two.reads (same ▸ stops)).both fun value isRight => .spanFrom fun span => ?_)
    refine (reads_toValue isLeft).bind fun left sameLeft =>
      (reads_toValue isRight).bind fun right sameRight => ?_
    rw [← chained]
    refine further first rounds _ ?_ ?_
    · rw [Expr.bare, ValueExpr.bare, sameLeft, sameRight]
    · simp only [List.length_cons, List.length_append] at enough
      omega

theorem not {operand : BoolExpr}
    (one : Begins .negation levels tokens fun x => (asPredicate x).bare = operand) :
    Begins .negation (levels + 1) (.word "NOT" :: tokens)
      fun x => x.bare = .bool (.not .none operand) := by
  refine .of_reads ⟨_, _, rfl, rfl⟩ (fun _ _ _ _ => rfl) fun k rest stops => ?_
  refine .start fun first => .skip ((deeper_negation fun k => one.reads stops).finish fun x same => ?_)
  exact .spanFrom fun span => .pure (by rw [Expr.bare, BoolExpr.bare, same])

/-- A sign in front of anything but a numeral. -/
theorem unary {sign : Sign} (one : Begins .signed levels tokens fun x => x.bare = .value node)
    (wordy : sign = .minus → numberText? tokens.head? = none) :
    Begins .signed (levels + 1) (sign.token :: tokens)
      fun x => x.bare = .value (.unary .none sign node) := by
  refine .of_reads ⟨_, _, rfl, by cases sign <;> rfl⟩ (fun _ _ _ _ => rfl) fun k rest stops => ?_
  have operand {first : Nat} : Parses (levels + 1 ≤ k)
      (do
        let operand ← (productions k).signed
        let span ← Reader.spanFrom first
        return .value (.unary span sign (← toValue operand)) : Production Expr)
      (tokens ++ rest) rest fun x => x.bare = .value (.unary .none sign node) := by
    refine (deeper_signed fun k => one.reads stops).finish fun x same => .spanFrom fun span => ?_
    exact (reads_toValue same).bind fun value sameValue =>
      .pure (by rw [Expr.bare, ValueExpr.bare, sameValue])
  rw [List.cons_append]
  refine .start fun first => .peek ?_
  cases sign with
  | plus => exact .advance (.peek operand)
  | minus =>
    have other : numberText? (tokens ++ rest).head? = none := by
      obtain ⟨token, more, rfl, -⟩ := one.starts
      exact wordy rfl
    refine .advance (.peek ?_)
    rw [other]
    exact operand

end Reading.ExpressionReader.Begins

end EventQuery
