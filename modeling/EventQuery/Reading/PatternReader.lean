import EventQuery.Number.Reader
import EventQuery.Number.Width
import EventQuery.Pattern.Basic
import EventQuery.Reading.Cursor
import EventQuery.Text.Printable

/-!
The reader of match patterns. The grammar:

    pattern     = sequence (| sequence)*
    sequence    = item (: item)*
    item        = atom quantifier*
    quantifier  = * | + | ? | { n } | { n , n } | { n , * } | { * , n }
    atom        = id | ( pattern ) | (?: pattern ) | [^] [ id+ ]

Patterns in parentheses are read a level deeper.
-/
namespace EventQuery.Reading

inductive PatternToken where
  | openSilent | openParen | closeParen | openBracket | closeBracket | openBrace | closeBrace
  | caret | pipe | colon | comma | star | plus | question | minus
  | number (text : String)
  deriving DecidableEq, Repr

namespace PatternToken

/-- The text of a token. -/
def text : PatternToken → String
  | openSilent => "(?:"
  | openParen => "("
  | closeParen => ")"
  | openBracket => "["
  | closeBracket => "]"
  | openBrace => "\x7b"
  | closeBrace => "\x7d"
  | caret => "^"
  | pipe => "|"
  | colon => ":"
  | comma => ","
  | star => "*"
  | plus => "+"
  | question => "?"
  | minus => "-"
  | number text => text

end PatternToken

namespace PatternReader

open Number.Reader (isDigit)
open Reader (peek? place start spanFrom advance skip fail tooDeep)

/-- The longest token that starts with a character. -/
def lexeme (first : Char) (rest : List Char) : Lexeme PatternToken :=
  match first, rest with
  | '(', '?' :: ':' :: _ => .token .openSilent 2
  | '(', _ => .token .openParen 0
  | ')', _ => .token .closeParen 0
  | '[', _ => .token .openBracket 0
  | ']', _ => .token .closeBracket 0
  | '\x7b', _ => .token .openBrace 0
  | '\x7d', _ => .token .closeBrace 0
  | '^', _ => .token .caret 0
  | '|', _ => .token .pipe 0
  | ':', _ => .token .colon 0
  | ',', _ => .token .comma 0
  | '*', _ => .token .star 0
  | '+', _ => .token .plus 0
  | '?', _ => .token .question 0
  | '-', _ => .token .minus 0
  | first, rest =>
    if isDigit first then
      let others := rest.takeWhile isDigit
      .token (.number (String.ofList (first :: others))) others.length
    else .bad 0

abbrev Production (α : Type) := Reader PatternToken α

def unexpected (expected : String) : Production α := do
  let found := match ← peek? with
    | some token => s!"`{token.text}`"
    | none => "end of input"
  fail (← place) s!"expected {expected}, found {found}"

def expect (token : PatternToken) (expected : String) : Production Unit := do
  unless ← skip token do unexpected expected

/-- A number with its sign. -/
def number : Production Int64 := do
  let negative ← skip .minus
  let span ← place
  match ← peek? with
  | some (.number text) =>
    advance
    let signed := if negative then "-" ++ text else text
    match (Number.Reader.integer? signed.toList).bind Number.Width.int64? with
    | some word => return word
    | none => fail span s!"number `{signed}` is out of range"
  | _ => unexpected "a number"

/-- Bounds in braces; the opening brace was read. -/
def bracedBounds : Production (Int64 × Option Int64) := do
  let least ← if ← skip .star then pure none else some <$> number
  if ← skip .closeBrace then
    match least with
    | some exact => return (exact, some exact)
    | none => unexpected "`,`"
  expect .comma "`,` or `\x7d`"
  let unlimited ← if least.isSome then skip .star else pure false
  let most ← if unlimited then pure none else some <$> number
  expect .closeBrace "`\x7d`"
  return (least.getD 0, most)

def quantifier? : Production (Option (Int64 × Option Int64)) := do
  match ← peek? with
  | some .star =>
    advance
    return some (0, none)
  | some .plus =>
    advance
    return some (1, none)
  | some .question =>
    advance
    return some (0, some 1)
  | some .openBrace =>
    advance
    return some (← bracedBounds)
  | _ => return none

/-- The steps of a bracket up to its end. -/
def bracketRest : Nat → Production (List Int64)
  | 0 => unexpected "a number"
  | rounds + 1 => do
    if ← skip .closeBracket then return []
    let step ← number
    return step :: (← bracketRest rounds)

def bracket (first : Nat) : Production Pattern := do
  let negating ← skip .caret
  expect .openBracket "`[`"
  let step ← number
  let steps ← bracketRest ((← Reader.remaining) + 1)
  return .bracket (← spanFrom first) negating (step :: steps) true

/-- An atom; `deeper` reads patterns in parentheses. -/
def atom (deeper : Production Pattern) : Production Pattern := do
  let first ← start
  match ← peek? with
  | some .openSilent =>
    advance
    let inner ← deeper
    expect .closeParen "`)`"
    return inner.silent
  | some .openParen =>
    advance
    let inner ← deeper
    expect .closeParen "`)`"
    return inner
  | some .caret => bracket first
  | some .openBracket => bracket first
  | some .minus => do
    let id ← number
    return .step (← spanFrom first) id true
  | some (.number _) => do
    let id ← number
    return .step (← spanFrom first) id true
  | _ => unexpected "a step id, `(` or `[`"

/-- Quantifiers behind an item; every one reads at least a token. -/
def quantified (first : Nat) : Nat → Pattern → Production Pattern
  | 0, item => return item
  | rounds + 1, item => do
    match ← quantifier? with
    | none => return item
    | some (least, most) =>
      let span ← spanFrom first
      quantified first rounds (.repetition span least most item item.capturing)

def item (deeper : Production Pattern) : Production Pattern := do
  let first ← start
  let read ← atom deeper
  quantified first (← Reader.remaining) read

/-- Items behind the first one; every one reads at least a token. -/
def itemsRest (separator : PatternToken) (item : Production Pattern) :
    Nat → Production (List Pattern)
  | 0 => return []
  | rounds + 1 => do
    if ← skip separator then
      let next ← item
      return next :: (← itemsRest separator item rounds)
    else return []

/-- Items with a separator between them; a single item stands alone. -/
def separated (op : ListOp) (separator : PatternToken) (item : Production Pattern) :
    Production Pattern := do
  let first ← start
  let head ← item
  match ← itemsRest separator item (← Reader.remaining) with
  | [] => return head
  | others => return .list (← spanFrom first) op (head :: others) true

/-- A pattern when `levels` more levels may be entered. -/
def pattern : Nat → Production Pattern
  | 0 => tooDeep
  | levels + 1 =>
    separated .alternatives .pipe (separated .sequence .colon (item (pattern levels)))

/-- A pattern and nothing behind it. -/
def whole : Production Pattern := do
  let read ← pattern nestingLimit
  if (← peek?).isSome then unexpected "`|`, `:` or a quantifier" else return read

end PatternReader

/-- Reads a match pattern. Whether its steps exist is not checked. -/
def readPattern (text : String) : Except ReadError Pattern := do
  let complaint (piece : String) :=
    "unexpected character " ++ Text.Printable.quoted piece ++ " in pattern"
  PatternReader.whole.run (← scan PatternReader.lexeme complaint text) text.utf8ByteSize

end EventQuery.Reading
