import EventQuery.Constant.Cast
import EventQuery.Expression.Basic
import EventQuery.Number.Width
import EventQuery.Reading.Token

/-!
The reader of expressions. The grammar, loosest first:

    or          = and (OR and)*
    and         = not (AND not)*
    not         = NOT not | comparison
    comparison  = sum [relation sum | [NOT] BETWEEN sum AND sum | IS [NOT] NULL
                       | IN ( values ) | IN path]
    sum         = product ((+ | -) product)*
    product     = signed ((* | / | %) signed)*
    signed      = - signed | + signed | primary

A production that contains itself reads the inner one a level deeper; the number of
levels is limited. All loops read at least one token a round, so as many rounds as
there are tokens are enough.
-/
namespace EventQuery.Reading

open Reader (peek? second? place start spanFrom advance skip fail tooDeep)

/-! ### Families -/

/-- An expression where a predicate is expected. -/
def asPredicate : Expr → BoolExpr
  | .bool node => node
  | .value (.constant span (.boolean truth)) => .constant span (.boolean truth)
  | .value node => .ofValue node

/-- An expression where a value is expected. -/
def asValue : Expr → Except ReadError ValueExpr
  | .value node => .ok node
  | .bool (.constant span value) => .ok (.constant span value)
  | .bool (.wrapper _ value) => .ok value
  | .bool node => .error ⟨node.span, "expected a value, found a predicate"⟩

namespace ExpressionReader

abbrev Production (α : Type) := Reader Token α

def toValue (expr : Expr) : Production ValueExpr := liftM (asValue expr)

/-! ### Tokens -/

def unexpected (expected : String) : Production α := do
  let found := match ← peek? with
    | some token => token.describe
    | none => "end of input"
  fail (← place) s!"expected {expected}, found {found}"

def expect (token : Token) : Production Unit := do
  unless ← skip token do unexpected token.describe

def expectWord (word : String) : Production Unit := do
  unless ← skip (.word word) do unexpected s!"`{word}`"

def nextIsWord (word : String) : Production Bool := do return (← peek?) = some (.word word)

/-- Any word, keywords included. -/
def name : Production String := do
  match ← peek? with
  | some (.word word) =>
    advance
    return word
  | _ => unexpected "a name"

def dottedNameRest : Nat → String → Production String
  | 0, read => return read
  | rounds + 1, read => do
    if ← skip .dot then dottedNameRest rounds (read ++ "." ++ (← name)) else return read

def dottedName : Production String := do
  let first ← name
  dottedNameRest (← Reader.remaining) first

/-- The constant of a number with its sign. -/
def numberConstant (text : String) (negative : Bool) (span : Span) : Production Constant := do
  let signed := if negative then "-" ++ text else text
  if text.toList.all Number.Reader.isDigit then
    match (Number.Reader.integer? signed.toList).bind Number.Width.int64? with
    | some word => return .ofInteger word
    | none => fail span s!"integer `{signed}` is out of range"
  else
    match Number.Reader.decimal? signed.toList with
    | some number => return .double number
    | none => fail span s!"malformed number `{signed}`"

/-! ### Productions -/

/-- The productions one level deeper. -/
structure Deeper where
  expression : Production Expr
  negation : Production Expr
  signed : Production Expr

namespace Deeper

def value (deeper : Deeper) : Production ValueExpr := do toValue (← deeper.expression)

def predicate (deeper : Deeper) : Production BoolExpr := do
  return asPredicate (← deeper.expression)

end Deeper

/-- Values between commas up to the closing parenthesis, at least one. -/
def valuesRest (deeper : Deeper) : Nat → Production (List ValueExpr)
  | 0 => unexpected "an expression"
  | rounds + 1 => do
    let first ← deeper.value
    if ← skip .closeParen then return [first]
    if ← skip .comma then return first :: (← valuesRest deeper rounds)
    unexpected "`,` or `)`"

/-- Values between commas; the opening parenthesis was read. -/
def values (deeper : Deeper) : Production (List ValueExpr) := do
  if ← skip .closeParen then return []
  valuesRest deeper ((← Reader.remaining) + 1)

/-! #### Calls -/

def path : Production ValueExpr := do
  let first ← start
  let read ← dottedName
  return .path (← spanFrom first) read none

def pathOrCall (deeper : Deeper) (first : Nat) : Production ValueExpr := do
  let read ← dottedName
  let span ← spanFrom first
  if ← skip .openParen then
    let arguments ← values deeper
    return .call (← spanFrom first) read arguments none
  else return .path span read none

def conversion (deeper : Deeper) (kind : Conversion) (first : Nat) : Production ValueExpr := do
  advance
  expect .openParen
  let operand ← deeper.value
  expect .closeParen
  return .conversion (← spanFrom first) kind operand

/-- Types whose constants are written as a cast of a literal. -/
def isLiteralCast : DataType → Bool
  | .byte | .short | .long | .double | .datetime => true
  | _ => false

/-- A cast; a cast of a literal that is the text of a constant is that constant. -/
def castNode (span : Span) (target : DataType) (operand : ValueExpr) : ValueExpr :=
  match operand with
  | .constant _ value =>
    if isLiteralCast target then
      match value.cast target with
      | .ok value => .constant span value
      | .error _ => .cast span target operand
    else .cast span target operand
  | _ => .cast span target operand

def cast (deeper : Deeper) (first : Nat) : Production ValueExpr := do
  advance
  expect .openParen
  let operand ← deeper.value
  expectWord "AS"
  let typeSpan ← place
  let typeName ← name
  let some target := DataType.ofName? typeName | fail typeSpan s!"unknown type `{typeName}`"
  expect .closeParen
  return castNode (← spanFrom first) target operand

def quantumOf? (keyword unit : String) : Option Quantum :=
  if keyword = "TRUNCATE" then
    (TimeUnit.all.find? fun known => known.keyword == unit).map .truncate
  else (TimePart.all.find? fun known => known.keyword == unit).map .extract

def zoneName : Production String := do
  match ← peek? with
  | some (.string raw) =>
    advance
    return Text.Quoted.unquote raw
  | _ => unexpected "a string"

def quantum (deeper : Deeper) (keyword : String) (first : Nat) : Production ValueExpr := do
  advance
  expect .openParen
  let unitSpan ← place
  let unit ← name
  let some taken := quantumOf? keyword unit | fail unitSpan s!"unknown time unit `{unit}`"
  expect .comma
  let operand ← deeper.value
  let zone ← if ← skip .comma then some <$> zoneName else pure none
  expect .closeParen
  return .quantum (← spanFrom first) taken operand zone none

def boundary (edge : Edge) (first : Nat) : Production BoolExpr := do
  advance
  expect .openParen
  let relation ← dottedName
  expect .closeParen
  return .boundary (← spanFrom first) edge relation none

def stepReference (first : Nat) : Production BoolExpr := do
  advance
  expect .openParen
  let negative ← skip .minus
  let span ← place
  let step ← match ← peek? with
    | some (.integer text) => do
      advance
      let constant ← numberConstant text negative span
      match constant.integral?.bind Number.Width.int64? with
      | some step => pure step
      | none => fail span "step id out of range"
    | _ => unexpected "a step id"
  expect .closeParen
  return .stepReference (← spanFrom first) step

/-- A part of an aggregation that a keyword introduces. -/
def clause (keyword : String) (body : Production α) : Production (Option α) := do
  if ← skip (.word keyword) then some <$> body else return none

def topCount (deeper : Deeper) : Production ValueExpr := do
  let count ← deeper.value
  expect .comma
  return count

def aggregation (deeper : Deeper) (op : AggregationOp) (first : Nat) : Production ValueExpr := do
  advance
  expect .openParen
  let count ← if op = AggregationOp.top then some <$> topCount deeper else pure none
  let target ← deeper.value
  let condition ← clause "WHERE" deeper.predicate
  let scope ← clause "SCOPE" dottedName
  let quanta ← clause "QUANTA" deeper.value
  expect .closeParen
  return .aggregation (← spanFrom first) op count target condition scope quanta none

def now (first : Nat) : Production ValueExpr := do
  advance
  expect .openParen
  expect .closeParen
  return .now (← spanFrom first)

def literal (value : Constant) : Production ValueExpr := do
  let span ← place
  advance
  return .constant span value

/-- A word with an opening parenthesis behind it. -/
def called (deeper : Deeper) (word : String) (first : Nat) : Production Expr := do
  match word with
  | "NOW" => return .value (← now first)
  | "CAST" => return .value (← cast deeper first)
  | "TRUNCATE" => return .value (← quantum deeper word first)
  | "EXTRACT" => return .value (← quantum deeper word first)
  | "START" => return .bool (← boundary .start first)
  | "END" => return .bool (← boundary .stop first)
  | "STEP" => return .bool (← stepReference first)
  | _ =>
    match AggregationOp.all.find? fun op => op.keyword == word with
    | some op => return .value (← aggregation deeper op first)
    | none =>
      match Conversion.all.find? fun kind => kind.keyword == word with
      | some kind => return .value (← conversion deeper kind first)
      | none => return .value (← pathOrCall deeper first)

def keywordOrName (deeper : Deeper) (word : String) (first : Nat) : Production Expr := do
  match word with
  | "TRUE" => return .value (← literal (.boolean true))
  | "FALSE" => return .value (← literal (.boolean false))
  | "NULL" => return .value (← literal .null)
  | _ =>
    if (← second?) = some .openParen then called deeper word first
    else return .value (← pathOrCall deeper first)

/-! #### Operators -/

/-- Words that cannot start an expression. -/
def reserved : List String :=
  ["AND", "OR", "NOT", "BETWEEN", "IS", "IN", "AS", "WHERE", "SCOPE", "QUANTA"]

def primary (deeper : Deeper) : Production Expr := do
  let span ← place
  match ← peek? with
  | some .openParen =>
    advance
    let expr ← deeper.expression
    expect .closeParen
    return expr
  | some (.integer text) =>
    advance
    return .value (.constant span (← numberConstant text false span))
  | some (.decimal text) =>
    advance
    return .value (.constant span (← numberConstant text false span))
  | some (.string raw) =>
    advance
    return .value (.constant span (.ofLiteral raw))
  | some (.parameter parameter) =>
    advance
    return .value (.parameter span parameter none)
  | some (.word word) =>
    if reserved.contains word then unexpected "an expression"
    else keywordOrName deeper word span.start
  | _ => unexpected "an expression"

/-- The text of a number token. -/
def numberText? : Option Token → Option String
  | some (.integer text) => some text
  | some (.decimal text) => some text
  | _ => none

/-- A minus in front of a number belongs to the number. -/
def signed (deeper : Deeper) : Production Expr := do
  let first ← start
  let sign? : Option Sign := match ← peek? with
    | some .minus => some .minus
    | some .plus => some .plus
    | _ => none
  match sign? with
  | none => primary deeper
  | some sign =>
    advance
    match sign, numberText? (← peek?) with
    | .minus, some text =>
      advance
      let span ← spanFrom first
      return .value (.constant span (← numberConstant text true span))
    | _, _ =>
      let operand ← deeper.signed
      let span ← spanFrom first
      return .value (.unary span sign (← toValue operand))

/-- Operands with the operators that `op?` knows between them, grouped to the left. -/
def chainRest (operand : Production Expr) (op? : Token → Option Arithmetic) (first : Nat) :
    Nat → Expr → Production Expr
  | 0, left => return left
  | rounds + 1, left => do
    match (← peek?).bind op? with
    | none => return left
    | some op =>
      advance
      let right ← operand
      let span ← spanFrom first
      let node := ValueExpr.binary span op (← toValue left) (← toValue right)
      chainRest operand op? first rounds (.value node)

def chain (operand : Production Expr) (op? : Token → Option Arithmetic) : Production Expr := do
  let first ← start
  let left ← operand
  chainRest operand op? first (← Reader.remaining) left

def factorOp? : Token → Option Arithmetic
  | .star => some .multiply
  | .slash => some .divide
  | .percent => some .modulo
  | _ => none

def termOp? : Token → Option Arithmetic
  | .plus => some .add
  | .minus => some .subtract
  | _ => none

def product (deeper : Deeper) : Production Expr := chain (signed deeper) factorOp?

def sum (deeper : Deeper) : Production Expr := chain (product deeper) termOp?

def relation? : Token → Option Relation
  | .equal => some .eq
  | .unequal => some .neq
  | .less => some .lt
  | .lessEqual => some .lte
  | .greater => some .gt
  | .greaterEqual => some .gte
  | _ => none

/-- The bounds behind `BETWEEN`. -/
def bounds (deeper : Deeper) (op : BoundsOp) (left : Expr) (first : Nat) : Production BoolExpr := do
  let lower ← sum deeper
  expectWord "AND"
  let upper ← sum deeper
  return .bounds (← spanFrom first) op (← toValue left) (← toValue lower) (← toValue upper)

/-- What follows `IS`. -/
def nullTest (left : Expr) (first : Nat) : Production BoolExpr := do
  let op := if ← skip (.word "NOT") then NullTestOp.isNotNull else NullTestOp.isNull
  expectWord "NULL"
  return .nullTest (← spanFrom first) op (← toValue left)

/-- What follows `IN`: values in parentheses, or the path of a vector. -/
def membership (deeper : Deeper) (left : Expr) (first : Nat) : Production BoolExpr := do
  let member ← toValue left
  if ← skip .openParen then
    let candidates ← values deeper
    return .inList (← spanFrom first) member candidates
  else
    let vector ← path
    return .inVector (← spanFrom first) member vector

def comparison (deeper : Deeper) : Production Expr := do
  let first ← start
  let left ← sum deeper
  if let some op := (← peek?).bind relation? then
    advance
    let right ← sum deeper
    return .bool (.comparison (← spanFrom first) op (← toValue left) (← toValue right))
  else if (← nextIsWord "NOT") && (← second?) = some (.word "BETWEEN") then
    advance
    advance
    return .bool (← bounds deeper .notBetween left first)
  else if ← skip (.word "BETWEEN") then
    return .bool (← bounds deeper .between left first)
  else if ← skip (.word "IS") then
    return .bool (← nullTest left first)
  else if ← skip (.word "IN") then
    return .bool (← membership deeper left first)
  else return left

def negation (deeper : Deeper) : Production Expr := do
  let first ← start
  if ← skip (.word "NOT") then
    let operand ← deeper.negation
    return .bool (.not (← spanFrom first) (asPredicate operand))
  else comparison deeper

/-- Predicates with a connective between them, grouped to the left. -/
def connectedRest (operand : Production Expr) (op : Connective) (first : Nat) :
    Nat → Expr → Production Expr
  | 0, left => return left
  | rounds + 1, left => do
    if ← skip (.word op.keyword) then
      let right ← operand
      let span ← spanFrom first
      connectedRest operand op first rounds
        (.bool (.binary span op (asPredicate left) (asPredicate right)))
    else return left

def connected (operand : Production Expr) (op : Connective) : Production Expr := do
  let first ← start
  let left ← operand
  connectedRest operand op first (← Reader.remaining) left

def expression (deeper : Deeper) : Production Expr :=
  connected (connected (negation deeper) .and) .or

/-- The productions when `levels` more levels may be entered. -/
def productions : Nat → Deeper
  | 0 => ⟨tooDeep, tooDeep, tooDeep⟩
  | levels + 1 =>
    let deeper := productions levels
    ⟨expression deeper, negation deeper, signed deeper⟩

/-- An expression and nothing behind it. -/
def whole : Production Expr := do
  let expr ← (productions nestingLimit).expression
  match ← peek? with
  | none => return expr
  | some token => fail (← place) s!"unexpected {token.describe} after the expression"

end ExpressionReader

/-- Reads an expression of either family. -/
def readExpr (text : String) : Except ReadError Expr := do
  ExpressionReader.whole.run (← tokenize text) text.utf8ByteSize

/-- Reads a predicate; a value is taken as one. -/
def readBool (text : String) : Except ReadError BoolExpr := do
  return asPredicate (← readExpr text)

/-- Reads a value. -/
def readValue (text : String) : Except ReadError ValueExpr := do
  asValue (← readExpr text)

end EventQuery.Reading
