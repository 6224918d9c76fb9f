import EventQuery.Expression.Text
import EventQuery.Proofs.Literals
import EventQuery.Reading.ExpressionReader

/-!
Expressions that have a text of their own, the tokens of that text, and how many levels
reading it goes down.
-/
namespace EventQuery

open Reading
open Text.Quoted

/-! ### What is written of a tree -/

mutual

/-- The predicate without spans and without what binding finds out. -/
def BoolExpr.bare : BoolExpr → BoolExpr
  | .constant _ value => .constant .none value
  | .binary _ op left right => .binary .none op left.bare right.bare
  | .not _ operand => .not .none operand.bare
  | .comparison _ op left right => .comparison .none op left.bare right.bare
  | .bounds _ op value lower upper => .bounds .none op value.bare lower.bare upper.bare
  | .nullTest _ op operand => .nullTest .none op operand.bare
  | .inList _ value candidates => .inList .none value.bare (ValueExpr.bares candidates)
  | .inVector _ value vector => .inVector .none value.bare vector.bare
  | .wrapper _ value => .wrapper .none value.bare
  | .boundary _ edge relation _ => .boundary .none edge relation none
  | .stepReference _ step => .stepReference .none step

/-- The value without spans and without what binding finds out. -/
def ValueExpr.bare : ValueExpr → ValueExpr
  | .constant _ value => .constant .none value
  | .path _ name _ => .path .none name none
  | .parameter _ name _ => .parameter .none name none
  | .binary _ op left right => .binary .none op left.bare right.bare
  | .unary _ sign operand => .unary .none sign operand.bare
  | .cast _ target operand => .cast .none target operand.bare
  | .conversion _ kind operand => .conversion .none kind operand.bare
  | .quantum _ taken operand zone _ => .quantum .none taken operand.bare zone none
  | .call _ name arguments _ => .call .none name (ValueExpr.bares arguments) none
  | .aggregation _ op count target condition scope quanta _ =>
    let count := match count with
      | some count => some count.bare
      | none => none
    let condition := match condition with
      | some condition => some condition.bare
      | none => none
    let quanta := match quanta with
      | some quanta => some quanta.bare
      | none => none
    .aggregation .none op count target.bare condition scope quanta none
  | .now _ => .now .none

def ValueExpr.bares : List ValueExpr → List ValueExpr
  | [] => []
  | node :: rest => node.bare :: ValueExpr.bares rest

end

def Expr.bare : Expr → Expr
  | .bool node => .bool node.bare
  | .value node => .value node.bare

theorem ValueExpr.bares_eq_map (nodes : List ValueExpr) : bares nodes = nodes.map bare := by
  induction nodes with
  | nil => rfl
  | cons node rest ih => rw [bares, ih, List.map_cons]

theorem ValueExpr.bare_aggregation {span : Span} {op : AggregationOp}
    {count quanta : Option ValueExpr} {target : ValueExpr} {condition : Option BoolExpr}
    {scope : Option String} {scopePath : Option Path} :
    (aggregation span op count target condition scope quanta scopePath).bare =
      .aggregation .none op (count.map bare) target.bare (condition.map BoolExpr.bare) scope
        (quanta.map bare) none := by
  cases count <;> cases condition <;> cases quanta <;> rfl

/-! ### Names -/

/-- Words that stand for something else at the start of an expression. -/
def Reading.isReserved (word : String) : Bool :=
  ExpressionReader.reserved.contains word || ["TRUE", "FALSE", "NULL"].contains word

/-- Words that stand for something else in front of a parenthesis. -/
def Reading.operatorWords : List String :=
  ["NOW", "CAST", "TRUNCATE", "EXTRACT", "START", "END", "STEP"] ++
    AggregationOp.all.map AggregationOp.keyword ++ Conversion.all.map Conversion.keyword

/-- The name may start an expression. -/
def Reading.Starts (name : String) : Prop :=
  ∀ word ∈ (nameWords name).head?, isReserved word = false

/-! ### Trees with a text -/

/-- What the reader can have read: names are written in words, a list of candidates that is
a single name is a vector, and truth values are constants of their own. -/
inductive Expr.Spelled : Expr → Prop where
  | truth {span truth} : Spelled (.bool (.constant span (.boolean truth)))
  | connective {span op left right} (first : Spelled (.bool left)) (second : Spelled (.bool right)) :
    Spelled (.bool (.binary span op left right))
  | not {span operand} (only : Spelled (.bool operand)) : Spelled (.bool (.not span operand))
  | comparison {span op left right} (first : Spelled (.value left))
    (second : Spelled (.value right)) : Spelled (.bool (.comparison span op left right))
  | bounds {span op value lower upper} (first : Spelled (.value value))
    (second : Spelled (.value lower)) (third : Spelled (.value upper)) :
    Spelled (.bool (.bounds span op value lower upper))
  | nullTest {span op operand} (only : Spelled (.value operand)) :
    Spelled (.bool (.nullTest span op operand))
  | inList {span value candidates} (first : Spelled (.value value))
    (others : ∀ candidate ∈ candidates, Spelled (.value candidate)) :
    Spelled (.bool (.inList span value candidates))
  | inVector {span value span' name resolved} (first : Spelled (.value value))
    (named : IsName name) : Spelled (.bool (.inVector span value (.path span' name resolved)))
  | wrapper {span value} (only : Spelled (.value value))
    (open' : ∀ span truth, value ≠ .constant span (.boolean truth)) :
    Spelled (.bool (.wrapper span value))
  | boundary {span edge relation resolved} (named : IsName relation) :
    Spelled (.bool (.boundary span edge relation resolved))
  | stepReference {span step} : Spelled (.bool (.stepReference span step))
  | constant {span value} : Spelled (.value (.constant span value))
  | path {span name resolved} (named : IsName name) (starts : Starts name) :
    Spelled (.value (.path span name resolved))
  | parameter {span name type} (word : IsWord name) : Spelled (.value (.parameter span name type))
  | arithmetic {span op left right} (first : Spelled (.value left))
    (second : Spelled (.value right)) : Spelled (.value (.binary span op left right))
  | unary {span sign operand} (only : Spelled (.value operand)) :
    Spelled (.value (.unary span sign operand))
  | cast {span target operand} (only : Spelled (.value operand)) :
    Spelled (.value (.cast span target operand))
  | conversion {span kind operand} (only : Spelled (.value operand)) :
    Spelled (.value (.conversion span kind operand))
  | quantum {span taken operand zone timeZone} (only : Spelled (.value operand)) :
    Spelled (.value (.quantum span taken operand zone timeZone))
  | call {span name arguments binding} (named : IsName name) (starts : Starts name)
    (free : name ∉ operatorWords) (all : ∀ argument ∈ arguments, Spelled (.value argument)) :
    Spelled (.value (.call span name arguments binding))
  | aggregation {span op count target condition scope quanta scopePath}
    (top : count.isSome = (op == AggregationOp.top))
    (counted : ∀ node, count = some node → Spelled (.value node)) (only : Spelled (.value target))
    (met : ∀ node, condition = some node → Spelled (.bool node))
    (named : ∀ name, scope = some name → IsName name)
    (lasting : ∀ node, quanta = some node → Spelled (.value node)) :
    Spelled (.value (.aggregation span op count target condition scope quanta scopePath))
  | now {span} : Spelled (.value (.now span))

/-! ### Tokens -/

def Arithmetic.token : Arithmetic → Token
  | add => .plus
  | subtract => .minus
  | multiply => .star
  | divide => .slash
  | modulo => .percent

def Relation.token : Relation → Token
  | eq => .equal
  | neq => .unequal
  | lt => .less
  | lte => .lessEqual
  | gt => .greater
  | gte => .greaterEqual

def Sign.token : Sign → Token
  | minus => .minus
  | plus => .plus

def BoundsOp.tokens : BoundsOp → List Token
  | between => [.word "BETWEEN"]
  | notBetween => [.word "NOT", .word "BETWEEN"]

def NullTestOp.tokens : NullTestOp → List Token
  | isNull => [.word "IS", .word "NULL"]
  | isNotNull => [.word "IS", .word "NOT", .word "NULL"]

def stepTokens (step : Int64) : List Token :=
  (if step.toInt < 0 then [.minus] else []) ++ [.integer (toString step.toInt.natAbs)]

/-- The zone of a calendar operator, if it names one. -/
def zoneTokens (zone : Option String) : List Token :=
  zone.elim [] fun zone => [.comma, .string (quote zone)]

theorem Quantum.isWord_keyword (taken : Quantum) : IsWord taken.keyword := by
  cases taken with
  | truncate => exact show IsWord "TRUNCATE" by decide
  | extract => exact show IsWord "EXTRACT" by decide

theorem Quantum.isWord_unitKeyword (taken : Quantum) : IsWord taken.unitKeyword := by
  cases taken with
  | truncate unit => cases unit <;> decide
  | extract part => cases part <;> decide

mutual

/-- The tokens of the text of a predicate. -/
def BoolExpr.tokens : BoolExpr → List Token
  | .constant _ value => value.tokens
  | .binary _ op left right => groupTokens (left.tokens ++ .word op.keyword :: right.tokens)
  | .not _ operand => groupTokens (.word "NOT" :: operand.tokens)
  | .comparison _ op left right => groupTokens (left.tokens ++ op.token :: right.tokens)
  | .bounds _ op value lower upper =>
    groupTokens (value.tokens ++ (op.tokens ++ (lower.tokens ++ .word "AND" :: upper.tokens)))
  | .nullTest _ op operand => groupTokens (operand.tokens ++ op.tokens)
  | .inList _ value candidates =>
    groupTokens (value.tokens ++
      .word "IN" :: groupTokens ([.comma].intercalate (ValueExpr.tokensOfAll candidates)))
  | .inVector _ value vector => groupTokens (value.tokens ++ .word "IN" :: vector.tokens)
  | .wrapper _ value => value.tokens
  | .boundary _ edge relation _ => calledTokens edge.keyword (nameTokens relation)
  | .stepReference _ step => calledTokens "STEP" (stepTokens step)

/-- The tokens of the text of a value. -/
def ValueExpr.tokens : ValueExpr → List Token
  | .constant _ value => value.tokens
  | .path _ name _ => nameTokens name
  | .parameter _ name _ => [.parameter name]
  | .binary _ op left right => groupTokens (left.tokens ++ op.token :: right.tokens)
  | .unary _ sign operand => groupTokens (sign.token :: operand.tokens)
  | .cast _ target operand => castTokens operand.tokens target
  | .conversion _ kind operand => calledTokens kind.keyword operand.tokens
  | .quantum _ taken operand zone _ =>
    calledTokens taken.keyword
      (.word taken.unitKeyword :: .comma :: (operand.tokens ++ zoneTokens zone))
  | .call _ name arguments _ =>
    nameTokens name ++ groupTokens ([.comma].intercalate (ValueExpr.tokensOfAll arguments))
  | .aggregation _ op count target condition scope quanta _ =>
    let countTokens := match count with
      | some count => count.tokens ++ [.comma]
      | none => []
    let conditionTokens := match condition with
      | some condition => .word "WHERE" :: condition.tokens
      | none => []
    let scopeTokens := match scope with
      | some scope => .word "SCOPE" :: nameTokens scope
      | none => []
    let quantaTokens := match quanta with
      | some quanta => .word "QUANTA" :: quanta.tokens
      | none => []
    calledTokens op.keyword
      (countTokens ++ (target.tokens ++ (conditionTokens ++ (scopeTokens ++ quantaTokens))))
  | .now _ => calledTokens "NOW" []

def ValueExpr.tokensOfAll : List ValueExpr → List (List Token)
  | [] => []
  | node :: rest => node.tokens :: ValueExpr.tokensOfAll rest

end

def Expr.tokens : Expr → List Token
  | .bool node => node.tokens
  | .value node => node.tokens

theorem ValueExpr.tokensOfAll_eq_map (nodes : List ValueExpr) :
    tokensOfAll nodes = nodes.map tokens := by
  induction nodes with
  | nil => rfl
  | cons node rest ih => rw [tokensOfAll, ih, List.map_cons]

theorem ValueExpr.texts_eq_map (nodes : List ValueExpr) : texts nodes = nodes.map text := by
  induction nodes with
  | nil => rfl
  | cons node rest ih => rw [texts, ih, List.map_cons]

theorem ValueExpr.text_aggregation {span : Span} {op : AggregationOp}
    {count quanta : Option ValueExpr}
    {target : ValueExpr} {condition : Option BoolExpr} {scope : Option String}
    {scopePath : Option Path} (top : count.isSome = (op == AggregationOp.top)) :
    (aggregation span op count target condition scope quanta scopePath).text =
      op.keyword ++ "(" ++ count.elim "" (·.text ++ ", ") ++ target.text ++
        condition.elim "" (" WHERE " ++ ·.text) ++ scope.elim "" (" SCOPE " ++ ·) ++
        quanta.elim "" (" QUANTA " ++ ·.text) ++ ")" := by
  cases count with
  | none => cases condition <;> cases scope <;> cases quanta <;> rfl
  | some count =>
    have counted : (if op == AggregationOp.top then count.text ++ ", " else "") = count.text ++ ", " :=
      if_pos top.symm
    rw [Option.elim_some, ← counted]
    cases condition <;> cases scope <;> cases quanta <;> rfl

theorem ValueExpr.tokens_aggregation {span : Span} {op : AggregationOp}
    {count quanta : Option ValueExpr} {target : ValueExpr} {condition : Option BoolExpr}
    {scope : Option String} {scopePath : Option Path} :
    (aggregation span op count target condition scope quanta scopePath).tokens =
      calledTokens op.keyword (count.elim [] (·.tokens ++ [.comma]) ++ (target.tokens ++
        (condition.elim [] (.word "WHERE" :: ·.tokens) ++
          (scope.elim [] (.word "SCOPE" :: nameTokens ·) ++
            quanta.elim [] (.word "QUANTA" :: ·.tokens))))) := by
  cases count <;> cases condition <;> cases scope <;> cases quanta <;> rfl

/-! ### Levels -/

/-- What is read of a sign in front of the text of a value, if that is a numeral and the
sign a minus. -/
def ValueExpr.negated? : Sign → ValueExpr → Option Constant
  | .minus, .constant _ value => value.negated?
  | _, _ => none

mutual

/-- How many levels reading the text of a predicate goes down. -/
def BoolExpr.levels : BoolExpr → Nat
  | .constant _ value => value.levels
  | .binary _ _ left right => max left.levels right.levels + 1
  | .not _ operand => operand.levels + 2
  | .comparison _ _ left right => max left.levels right.levels + 1
  | .bounds _ _ value lower upper => max value.levels (max lower.levels upper.levels) + 1
  | .nullTest _ _ operand => operand.levels + 1
  | .inList _ value candidates => max value.levels (ValueExpr.levelsOfAll candidates) + 1
  | .inVector _ value _ => value.levels + 1
  | .wrapper _ value => value.levels
  | .boundary .. => 0
  | .stepReference .. => 0

/-- How many levels reading the text of a value goes down. -/
def ValueExpr.levels : ValueExpr → Nat
  | .constant _ value => value.levels
  | .path .. => 0
  | .parameter .. => 0
  | .binary _ _ left right => max left.levels right.levels + 1
  | .unary _ sign operand =>
    if (ValueExpr.negated? sign operand).isSome then 1 else operand.levels + 2
  | .cast _ _ operand => operand.levels + 1
  | .conversion _ _ operand => operand.levels + 1
  | .quantum _ _ operand _ _ => operand.levels + 1
  | .call _ _ arguments _ => ValueExpr.levelsOfAll arguments
  | .aggregation _ _ count target condition _ quanta _ =>
    let ofCount := match count with
      | some count => count.levels
      | none => 0
    let ofCondition := match condition with
      | some condition => condition.levels
      | none => 0
    let ofQuanta := match quanta with
      | some quanta => quanta.levels
      | none => 0
    max ofCount (max target.levels (max ofCondition ofQuanta)) + 1
  | .now _ => 0

/-- How many levels reading values between commas goes down. -/
def ValueExpr.levelsOfAll : List ValueExpr → Nat
  | [] => 0
  | node :: rest => max (node.levels + 1) (ValueExpr.levelsOfAll rest)

end

def Expr.levels : Expr → Nat
  | .bool node => node.levels
  | .value node => node.levels

/-! ### Scanning -/

/-- Pieces between commas. -/
theorem lexes_commaSeparated {α : Type} {write : α → String} {tokens : α → List Token}
    {items : List α} (each : ∀ item ∈ items, Lexes lexeme Apart (write item).toList (tokens item)) :
    Lexes lexeme Apart (commaSeparated (items.map write)).toList
      ([.comma].intercalate (items.map tokens)) := by
  have comma : Lexes lexeme anywhere [',', ' '] [.comma] :=
    (lexes_char (by decide) fun _ => rfl).append (show Lexes lexeme anywhere [' '] [] from .space rfl)
      fun _ _ => trivial
  have pieces : List.Forall₂ (Lexes lexeme Apart) (items.map fun item => (write item).toList)
      (items.map tokens) := by
    rw [List.forall₂_map_left_iff, List.forall₂_map_right_iff, List.forall₂_same]
    exact each
  have whole := Lexes.intercalate comma (fun rest => apart_mark) pieces
  rw [commaSeparated, String.toList_intercalate, List.map_map]
  exact whole

theorem lexes_values {nodes : List ValueExpr}
    (each : ∀ node ∈ nodes, Lexes lexeme Apart node.text.toList node.tokens) :
    Lexes lexeme Apart (commaSeparated (ValueExpr.texts nodes)).toList
      ([.comma].intercalate (ValueExpr.tokensOfAll nodes)) := by
  rw [ValueExpr.texts_eq_map, ValueExpr.tokensOfAll_eq_map]
  exact lexes_commaSeparated each

theorem lexes_dotted {name : String} (named : IsName name) :
    Lexes lexeme Apart name.toList (nameTokens name) :=
  (lexes_name named).imp fun _ apart => apart.noWordPart

/-- Operators stand between blanks. -/
theorem lexes_operator {symbol piece : List Char} {token : Token} {tokens : List Token}
    (lexes : Lexes lexeme (·.head? = some ' ') symbol [token])
    (operand : Lexes lexeme Apart piece tokens) :
    Lexes lexeme Apart (symbol ++ ' ' :: piece) (token :: tokens) := by
  have blank : Lexes lexeme anywhere [' '] [] := .space rfl
  exact lexes.append (blank.append operand fun _ _ => trivial) fun _ _ => rfl

theorem lexes_arithmetic (op : Arithmetic) :
    Lexes lexeme (·.head? = some ' ') op.symbol.toList [op.token] := by
  cases op <;> exact .token (by decide) fun _ _ => rfl

theorem lexes_relation (op : Relation) :
    Lexes lexeme (·.head? = some ' ') op.symbol.toList [op.token] := by
  have single {rest : List Char} (blank : rest.head? = some ' ') : ∃ tail, rest = ' ' :: tail :=
    List.head?_eq_some_iff.1 blank
  cases op
  case lt =>
    refine .token (by decide) fun rest blank => ?_
    obtain ⟨tail, rfl⟩ := single blank
    rfl
  case gt =>
    refine .token (by decide) fun rest blank => ?_
    obtain ⟨tail, rfl⟩ := single blank
    rfl
  all_goals exact .token (by decide) fun _ _ => rfl

theorem lexes_sign (sign : Sign) : Lexes lexeme anywhere sign.symbol.toList [sign.token] := by
  cases sign <;> exact lexes_char (by decide) fun _ => rfl

theorem lexes_boundsOp (op : BoundsOp) : Lexes lexeme Apart op.keyword.toList op.tokens := by
  have between : Lexes lexeme Apart "BETWEEN".toList [.word "BETWEEN"] := lexes_keyword (by decide)
  have not : Lexes lexeme Apart "NOT".toList [.word "NOT"] := lexes_keyword (by decide)
  cases op with
  | between => exact between
  | notBetween => exact not.spaced between

theorem lexes_nullTestOp (op : NullTestOp) : Lexes lexeme Apart op.keyword.toList op.tokens := by
  have is : Lexes lexeme Apart "IS".toList [.word "IS"] := lexes_keyword (by decide)
  have not : Lexes lexeme Apart "NOT".toList [.word "NOT"] := lexes_keyword (by decide)
  have null : Lexes lexeme Apart "NULL".toList [.word "NULL"] := lexes_keyword (by decide)
  cases op with
  | isNull => exact is.spaced null
  | isNotNull => exact is.spaced (not.spaced null)

theorem lexes_parameter {name : String} (word : IsWord name) :
    Lexes lexeme Apart ('$' :: name.toList) [.parameter name] := by
  obtain ⟨first, rest, shape, starts, parts⟩ := word.exists_cons
  have whole : name = String.ofList (first :: rest) := by rw [← shape, String.ofList_toList]
  rw [shape, whole]
  refine .token (by decide) fun more apart => ?_
  have run := takeWhile_append parts apart.noWordPart
  rw [List.cons_append]
  simp only [lexeme, if_pos starts, run]

theorem lexes_step (step : Int64) :
    Lexes lexeme Apart (toString step).toList (stepTokens step) := by
  rw [Number.Reader.toString_int64, stepTokens]
  split_ifs with negative
  · rw [String.toList_append]
    have minus : Lexes lexeme anywhere "-".toList [.minus] := lexes_char (by decide) fun _ => rfl
    exact minus.append (lexes_natural _) fun _ _ => trivial
  · exact lexes_natural _

/-- A piece that is missing, or stands behind a blank. -/
def LexesClause (piece : List Char) (tokens : List Token) : Prop :=
  piece = [] ∧ tokens = [] ∨ ∃ inner, piece = ' ' :: inner ∧ Lexes lexeme Apart inner tokens

theorem Reading.Lexes.clause {piece piece' : List Char} {tokens tokens' : List Token}
    (first : Lexes lexeme Apart piece tokens) (second : LexesClause piece' tokens') :
    Lexes lexeme Apart (piece ++ piece') (tokens ++ tokens') := by
  rcases second with ⟨rfl, rfl⟩ | ⟨inner, rfl, second⟩
  · simpa using first
  · exact first.spaced second

/-- A clause that is missing, or a keyword with something behind it. -/
theorem lexesClause_keyword {keyword : String} (isWord : IsWord keyword) {α : Type}
    {part : Option α} {write : α → String} {read : α → List Token}
    (each : ∀ found, part = some found → Lexes lexeme Apart (write found).toList (read found)) :
    LexesClause (part.elim "" fun found => " " ++ keyword ++ " " ++ write found).toList
      (part.elim [] fun found => .word keyword :: read found) := by
  cases part with
  | none => exact .inl ⟨rfl, rfl⟩
  | some found =>
    exact .inr ⟨keyword.toList ++ ' ' :: (write found).toList, by simp,
      (lexes_keyword isWord).spaced (each found rfl)⟩

/-- The text of a calendar operator has its tokens if the text of its operand has. -/
theorem lexes_quantum {span : Span} {taken : Quantum} {operand : ValueExpr} {zone : Option String}
    {timeZone : Option TimeZone}
    (ofOperand : Lexes lexeme Apart operand.text.toList operand.tokens) :
    Lexes lexeme Apart (Expr.value (.quantum span taken operand zone timeZone)).text.toList
      (Expr.value (.quantum span taken operand zone timeZone)).tokens := by
  have unit := lexes_keyword taken.isWord_unitKeyword
  cases zone with
  | none =>
    have whole := Lexes.called taken.isWord_keyword (unit.comma ofOperand)
    simpa [Expr.text, ValueExpr.text, Expr.tokens, ValueExpr.tokens, zoneTokens, toString_text]
      using whole
  | some zone =>
    have inside := unit.comma (ofOperand.comma (lexes_quote zone))
    have whole := Lexes.called taken.isWord_keyword inside
    simpa [Expr.text, ValueExpr.text, Expr.tokens, ValueExpr.tokens, zoneTokens, toString_text]
      using whole

/-- The text of an aggregation has its tokens if the texts of its parts have. -/
theorem lexes_aggregation {span : Span} {op : AggregationOp} {count quanta : Option ValueExpr}
    {target : ValueExpr} {condition : Option BoolExpr} {scope : Option String}
    {scopePath : Option Path} (top : count.isSome = (op == AggregationOp.top))
    (counts : ∀ node, count = some node → Lexes lexeme Apart node.text.toList node.tokens)
    (ofTarget : Lexes lexeme Apart target.text.toList target.tokens)
    (conditions : ∀ node, condition = some node → Lexes lexeme Apart node.text.toList node.tokens)
    (named : ∀ name, scope = some name → IsName name)
    (quantas : ∀ node, quanta = some node → Lexes lexeme Apart node.text.toList node.tokens) :
    Lexes lexeme Apart
      (Expr.value (.aggregation span op count target condition scope quanta scopePath)).text.toList
      (Expr.value (.aggregation span op count target condition scope quanta scopePath)).tokens := by
  have keyword : IsWord op.keyword := by cases op <;> decide
  have conditionClause := lexesClause_keyword (show IsWord "WHERE" by decide) conditions
  have scopeClause := lexesClause_keyword (show IsWord "SCOPE" by decide)
    fun found isScope => lexes_dotted (named found isScope)
  have quantaClause := lexesClause_keyword (show IsWord "QUANTA" by decide) quantas
  have body := ((ofTarget.clause conditionClause).clause scopeClause).clause quantaClause
  rw [Expr.text, Expr.tokens, ValueExpr.text_aggregation top, ValueExpr.tokens_aggregation]
  cases count with
  | none =>
    have whole := Lexes.called keyword body
    simpa using whole
  | some count =>
    have whole := Lexes.called keyword ((counts count rfl).comma body)
    simpa using whole

namespace Expr.Spelled

/-- The text of an expression has these tokens. -/
theorem lexes {expr : Expr} (spelled : expr.Spelled) :
    Lexes lexeme Apart expr.text.toList expr.tokens := by
  induction spelled with
  | @truth _ truth => exact lexes_constant (.boolean truth)
  | @connective _ op _ _ _ _ ih ih' =>
    have keyword : Lexes lexeme Apart op.keyword.toList [.word op.keyword] :=
      lexes_keyword (by cases op <;> decide)
    have whole := (ih.spaced (keyword.spaced ih')).parens
    simpa [text, BoolExpr.text, tokens, BoolExpr.tokens, toString_text] using whole
  | not _ ih =>
    have keyword : Lexes lexeme Apart "NOT".toList [.word "NOT"] := lexes_keyword (by decide)
    have whole := (keyword.spaced ih).parens
    simpa [text, BoolExpr.text, tokens, BoolExpr.tokens, toString_text] using whole
  | @comparison _ op _ _ _ _ ih ih' =>
    have whole := (ih.spaced (lexes_operator (lexes_relation op) ih')).parens
    simpa [text, BoolExpr.text, tokens, BoolExpr.tokens, toString_text] using whole
  | @bounds _ op _ _ _ _ _ _ ih ih' ih'' =>
    have and : Lexes lexeme Apart "AND".toList [.word "AND"] := lexes_keyword (by decide)
    have whole := (ih.spaced ((lexes_boundsOp op).spaced (ih'.spaced (and.spaced ih'')))).parens
    simpa [text, BoolExpr.text, tokens, BoolExpr.tokens, toString_text] using whole
  | @nullTest _ op _ _ ih =>
    have whole := (ih.spaced (lexes_nullTestOp op)).parens
    simpa [text, BoolExpr.text, tokens, BoolExpr.tokens, toString_text] using whole
  | inList _ _ ih ihs =>
    have keyword : Lexes lexeme Apart "IN".toList [.word "IN"] := lexes_keyword (by decide)
    have whole := (ih.spaced (keyword.spaced (lexes_values ihs).parens)).parens
    simpa [text, BoolExpr.text, tokens, BoolExpr.tokens, toString_text] using whole
  | inVector _ named ih =>
    have keyword : Lexes lexeme Apart "IN".toList [.word "IN"] := lexes_keyword (by decide)
    have whole := (ih.spaced (keyword.spaced (lexes_dotted named))).parens
    simpa [text, BoolExpr.text, ValueExpr.text, tokens, BoolExpr.tokens, ValueExpr.tokens,
      toString_text] using whole
  | wrapper _ _ ih => simpa [text, BoolExpr.text, tokens, BoolExpr.tokens] using ih
  | @boundary _ edge _ _ named =>
    have keyword : IsWord edge.keyword := by cases edge <;> decide
    have whole := Lexes.called keyword (lexes_dotted named)
    simpa [text, BoolExpr.text, tokens, BoolExpr.tokens, toString_text] using whole
  | @stepReference _ step =>
    have whole := Lexes.called (show IsWord "STEP" by decide) (lexes_step step)
    simpa [text, BoolExpr.text, tokens, BoolExpr.tokens, toString_text] using whole
  | @constant _ value => exact lexes_constant value
  | path named _ => exact lexes_dotted named
  | parameter word =>
    simpa [text, ValueExpr.text, tokens, ValueExpr.tokens, toString_text] using lexes_parameter word
  | @arithmetic _ op _ _ _ _ ih ih' =>
    have whole := (ih.spaced (lexes_operator (lexes_arithmetic op) ih')).parens
    simpa [text, ValueExpr.text, tokens, ValueExpr.tokens, toString_text] using whole
  | @unary _ sign _ _ ih =>
    have whole := ((lexes_sign sign).append ih fun _ _ => trivial).parens
    simpa [text, ValueExpr.text, tokens, ValueExpr.tokens, toString_text] using whole
  | cast _ ih => exact lexes_cast ih _
  | @conversion _ kind _ _ ih =>
    have keyword : IsWord kind.keyword := by cases kind <;> decide
    have whole := Lexes.called keyword ih
    simpa [text, ValueExpr.text, tokens, ValueExpr.tokens, toString_text] using whole
  | quantum _ ih => exact lexes_quantum ih
  | call named _ _ _ ihs =>
    have whole := (lexes_dotted named).append (lexes_values ihs).parens fun _ _ => apart_mark
    simpa [text, ValueExpr.text, tokens, ValueExpr.tokens, toString_text] using whole
  | aggregation top _ _ _ named _ counts ih conditions quantas =>
    exact lexes_aggregation top counts ih conditions named quantas
  | now =>
    have whole := Lexes.called (show IsWord "NOW" by decide) (Lexes.nil (F := Apart))
    simpa [text, ValueExpr.text, tokens, ValueExpr.tokens, toString_text] using whole

end Expr.Spelled

/-! ### Nesting -/

theorem ValueExpr.levels_aggregation {span : Span} {op : AggregationOp}
    {count quanta : Option ValueExpr} {target : ValueExpr} {condition : Option BoolExpr}
    {scope : Option String} {scopePath : Option Path} :
    (aggregation span op count target condition scope quanta scopePath).levels =
      max (count.elim 0 (·.levels)) (max target.levels
        (max (condition.elim 0 (·.levels)) (quanta.elim 0 (·.levels)))) + 1 := by
  cases count <;> cases condition <;> cases quanta <;> rfl

namespace NestedFor

theorem nil : NestedFor 0 [] := ⟨0, .nil, Nat.le_refl _⟩

/-- Values between commas; their levels count from the parentheses around them. -/
theorem values {nodes : List ValueExpr}
    (each : ∀ node ∈ nodes, NestedFor node.levels node.text.toList) :
    NestedFor (ValueExpr.levelsOfAll nodes - 1) (commaSeparated (ValueExpr.texts nodes)).toList := by
  rw [commaSeparated]
  induction nodes with
  | nil => exact nil
  | cons node others ih =>
    obtain ⟨first, rest⟩ := List.forall_mem_cons.1 each
    rw [ValueExpr.levelsOfAll]
    cases others with
    | nil => simpa [ValueExpr.texts, ValueExpr.levelsOfAll] using first
    | cons second others =>
      rw [ValueExpr.texts, ValueExpr.texts, String.intercalate_cons_cons, ← ValueExpr.texts]
      have whole := first.comma (ih rest)
      refine NestedFor.mono (by simpa using whole) (by omega)

theorem name {name : String} (named : IsName name) : NestedFor 0 name.toList := by
  obtain ⟨words, -, each, rfl⟩ := named
  induction words with
  | nil => exact nil
  | cons first others ih =>
    obtain ⟨isWord, rest⟩ := List.forall_mem_cons.1 each
    cases others with
    | nil => simpa using word isWord
    | cons second others =>
      have dot : NestedFor 0 ['.'] := flat (by decide)
      rw [String.intercalate_cons_cons]
      simpa using (word isWord).append (dot.append (ih rest))

/-- A clause that is missing, or a keyword with something behind it. -/
theorem clause {keyword : String} (isWord : IsWord keyword) {α : Type} {part : Option α}
    {write : α → String} {depth : α → Nat}
    (each : ∀ found, part = some found → NestedFor (depth found) (write found).toList) :
    NestedFor (part.elim 0 depth)
      (part.elim "" fun found => " " ++ keyword ++ " " ++ write found).toList := by
  cases part with
  | none => exact nil
  | some found =>
    have blank : NestedFor 0 [' '] := flat (by decide)
    simpa using blank.append ((word isWord).spaced (each found rfl))

/-- Two operands around an operator, in parentheses. -/
theorem joined {operator left right : List Char} {levels levels' : Nat}
    (symbol : NestedFor 0 operator) (first : NestedFor levels left)
    (second : NestedFor levels' right) :
    NestedFor (max levels levels' + 1)
      ('(' :: (left ++ ' ' :: (operator ++ ' ' :: right) ++ [')'])) :=
  (first.spaced (symbol.spaced second)).parens.mono (by omega)

theorem step (step : Int64) : NestedFor 0 (toString step).toList := by
  rw [Number.Reader.toString_int64]
  split_ifs
  · have minus : NestedFor 0 "-".toList := flat (by decide)
    rw [String.toList_append]
    exact minus.append (flat (Number.Reader.isPlain_toString _))
  · exact flat (Number.Reader.isPlain_toString _)

/-- A list of candidates is in parentheses of its own, inside those around the membership. -/
theorem inList {span : Span} {value : ValueExpr} {candidates : List ValueExpr}
    (ofValue : NestedFor value.levels value.text.toList)
    (each : ∀ node ∈ candidates, NestedFor node.levels node.text.toList) :
    NestedFor (Expr.bool (.inList span value candidates)).levels
      (Expr.bool (.inList span value candidates)).text.toList := by
  have keyword : NestedFor 0 "IN".toList := word (by decide)
  have whole := joined keyword ofValue (values each).parens
  refine NestedFor.mono (by simpa [Expr.text, BoolExpr.text, toString_text] using whole) ?_
  rw [Expr.levels, BoolExpr.levels]
  omega

theorem quantum {span : Span} {taken : Quantum} {operand : ValueExpr} {zone : Option String}
    {timeZone : Option TimeZone} (ofOperand : NestedFor operand.levels operand.text.toList) :
    NestedFor (Expr.value (.quantum span taken operand zone timeZone)).levels
      (Expr.value (.quantum span taken operand zone timeZone)).text.toList := by
  have unit : NestedFor 0 taken.unitKeyword.toList := word taken.isWord_unitKeyword
  rw [Expr.levels, ValueExpr.levels, Expr.text]
  cases zone with
  | none =>
    have whole := called taken.isWord_keyword (unit.comma ofOperand)
    exact NestedFor.mono (by simpa [ValueExpr.text, toString_text] using whole) (by omega)
  | some zone =>
    have whole := called taken.isWord_keyword (unit.comma (ofOperand.comma (quote zone)))
    exact NestedFor.mono (by simpa [ValueExpr.text, toString_text] using whole) (by omega)

theorem call {span : Span} {name : String} {arguments : List ValueExpr} {binding : Option Binding}
    (named : IsName name) (each : ∀ node ∈ arguments, NestedFor node.levels node.text.toList) :
    NestedFor (Expr.value (.call span name arguments binding)).levels
      (Expr.value (.call span name arguments binding)).text.toList := by
  have whole := (NestedFor.name named).append (values each).parens
  refine NestedFor.mono (by simpa [Expr.text, ValueExpr.text, toString_text] using whole) ?_
  rw [Expr.levels, ValueExpr.levels]
  omega

theorem aggregation {span : Span} {op : AggregationOp} {count quanta : Option ValueExpr}
    {target : ValueExpr} {condition : Option BoolExpr} {scope : Option String}
    {scopePath : Option Path} (top : count.isSome = (op == AggregationOp.top))
    (counts : ∀ node, count = some node → NestedFor node.levels node.text.toList)
    (ofTarget : NestedFor target.levels target.text.toList)
    (conditions : ∀ node, condition = some node → NestedFor node.levels node.text.toList)
    (named : ∀ name, scope = some name → IsName name)
    (quantas : ∀ node, quanta = some node → NestedFor node.levels node.text.toList) :
    NestedFor (Expr.value (.aggregation span op count target condition scope quanta scopePath)).levels
      (Expr.value (.aggregation span op count target condition scope quanta scopePath)).text.toList := by
  have keyword : IsWord op.keyword := by cases op <;> decide
  have conditionClause : NestedFor (condition.elim 0 (·.levels)) _ :=
    clause (show IsWord "WHERE" by decide) conditions
  have scopeClause := clause (show IsWord "SCOPE" by decide)
    fun found isScope => NestedFor.name (named found isScope)
  have quantaClause : NestedFor (quanta.elim 0 (·.levels)) _ :=
    clause (show IsWord "QUANTA" by decide) quantas
  have body := ((ofTarget.append conditionClause).append scopeClause).append quantaClause
  have flat : scope.elim 0 (fun _ => 0) = 0 := by cases scope <;> rfl
  rw [Expr.text, Expr.levels, ValueExpr.text_aggregation top, ValueExpr.levels_aggregation]
  rw [flat] at body
  cases count with
  | none =>
    have whole := called keyword body
    refine NestedFor.mono (by simpa using whole) ?_
    simp only [Option.elim_none]
    omega
  | some count =>
    have whole := called keyword ((counts count rfl).comma body)
    refine NestedFor.mono (by simpa using whole) ?_
    simp only [Option.elim_some]
    omega

end NestedFor

namespace Expr.Spelled

/-- The text of an expression is nested at least half as deep as reading it goes down. -/
theorem nested {expr : Expr} (spelled : expr.Spelled) : NestedFor expr.levels expr.text.toList := by
  induction spelled with
  | @truth _ truth => exact .constant (.boolean truth)
  | @connective _ op _ _ _ _ ih ih' =>
    have keyword : NestedFor 0 op.keyword.toList := .word (by cases op <;> decide)
    have whole := NestedFor.joined keyword ih ih'
    simpa [text, BoolExpr.text, levels, BoolExpr.levels, toString_text] using whole
  | not _ ih =>
    have keyword : NestedFor 0 "NOT".toList := .word (by decide)
    have whole := (keyword.spaced ih).parens
    simpa [text, BoolExpr.text, levels, BoolExpr.levels, toString_text] using whole
  | @comparison _ op _ _ _ _ ih ih' =>
    have symbol : NestedFor 0 op.symbol.toList := .flat (by cases op <;> decide)
    have whole := NestedFor.joined symbol ih ih'
    simpa [text, BoolExpr.text, levels, BoolExpr.levels, toString_text] using whole
  | @bounds _ op _ _ _ _ _ _ ih ih' ih'' =>
    have keyword : NestedFor 0 op.keyword.toList := .flat (by cases op <;> decide)
    have and : NestedFor 0 "AND".toList := .word (by decide)
    have whole := NestedFor.joined keyword ih (ih'.spaced (and.spaced ih''))
    simpa [text, BoolExpr.text, levels, BoolExpr.levels, toString_text] using whole
  | @nullTest _ op _ _ ih =>
    have keyword : NestedFor 0 op.keyword.toList := .flat (by cases op <;> decide)
    have whole := (ih.spaced keyword).parens.mono (Nat.le_succ _)
    simpa [text, BoolExpr.text, levels, BoolExpr.levels, toString_text] using whole
  | inList _ _ ih ihs => exact .inList ih ihs
  | inVector _ named ih =>
    have keyword : NestedFor 0 "IN".toList := .word (by decide)
    have whole := NestedFor.joined keyword ih (.name named)
    simpa [text, BoolExpr.text, ValueExpr.text, levels, BoolExpr.levels, toString_text] using whole
  | wrapper _ _ ih => simpa [text, BoolExpr.text, levels, BoolExpr.levels] using ih
  | @boundary _ edge _ _ named =>
    have keyword : IsWord edge.keyword := by cases edge <;> decide
    have whole := (NestedFor.called keyword (.name named)).mono (Nat.zero_le _)
    simpa [text, BoolExpr.text, levels, BoolExpr.levels, toString_text] using whole
  | @stepReference _ step =>
    have whole := NestedFor.called (show IsWord "STEP" by decide) (.step step)
    exact NestedFor.mono (by simpa [text, BoolExpr.text, toString_text] using whole) (Nat.zero_le _)
  | @constant _ value => exact .constant value
  | path named _ => exact .name named
  | parameter isWord =>
    have mark : NestedFor 0 ['$'] := .flat (by decide)
    have whole := mark.append (.word isWord)
    simpa [text, ValueExpr.text, levels, ValueExpr.levels, toString_text] using whole
  | @arithmetic _ op _ _ _ _ ih ih' =>
    have symbol : NestedFor 0 op.symbol.toList := .flat (by cases op <;> decide)
    have whole := NestedFor.joined symbol ih ih'
    simpa [text, ValueExpr.text, levels, ValueExpr.levels, toString_text] using whole
  | @unary _ sign _ _ ih =>
    have symbol : NestedFor 0 sign.symbol.toList := .flat (by cases sign <;> decide)
    have whole := (symbol.append ih).parens
    refine NestedFor.mono (by simpa [text, ValueExpr.text, toString_text] using whole) ?_
    simp only [levels, ValueExpr.levels]
    split_ifs <;> omega
  | cast _ ih => exact ih.cast _
  | @conversion _ kind _ _ ih =>
    have keyword : IsWord kind.keyword := by cases kind <;> decide
    have whole := (NestedFor.called keyword ih).mono (Nat.le_succ _)
    simpa [text, ValueExpr.text, levels, ValueExpr.levels, toString_text] using whole
  | quantum _ ih => exact .quantum ih
  | call named _ _ _ ihs => exact .call named ihs
  | aggregation top _ _ _ named _ counts ih conditions quantas =>
    exact .aggregation top counts ih conditions named quantas
  | now =>
    have whole := NestedFor.called (show IsWord "NOW" by decide) NestedFor.nil
    exact NestedFor.mono (by simpa [text, ValueExpr.text] using whole) (Nat.zero_le _)

end Expr.Spelled

end EventQuery
