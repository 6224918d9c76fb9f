import EventQuery.Number.Reader
import EventQuery.Reading.Cursor
import EventQuery.Text.Printable

/-!
The tokens of expression text. Keywords are words; the reader tells them apart.
-/
namespace EventQuery.Reading

inductive Token where
  | openParen | closeParen | comma | dot
  | plus | minus | star | slash | percent
  | equal | unequal | lessEqual | greaterEqual | less | greater
  | word (text : String)
  | parameter (name : String)
  | integer (text : String)
  | decimal (text : String)
  /-- A string with its quotes. -/
  | string (raw : String)
  deriving DecidableEq, Repr

namespace Token

/-- A token as messages name it. -/
def describe : Token → String
  | openParen => "`(`"
  | closeParen => "`)`"
  | comma => "`,`"
  | dot => "`.`"
  | plus => "`+`"
  | minus => "`-`"
  | star => "`*`"
  | slash => "`/`"
  | percent => "`%`"
  | equal => "`==`"
  | unequal => "`!=`"
  | lessEqual => "`<=`"
  | greaterEqual => "`>=`"
  | less => "`<`"
  | greater => "`>`"
  | word text => s!"`{text}`"
  | parameter name => s!"`${name}`"
  | integer text => s!"number `{text}`"
  | decimal text => s!"number `{text}`"
  | string raw => s!"string {raw}"

end Token

open Number.Reader (isDigit)

def isWordStart (c : Char) : Bool := c.isAlpha || c == '_'

def isWordPart (c : Char) : Bool := isWordStart c || isDigit c

/-- How many characters of an exponent follow; none if there is no whole exponent. -/
def exponentLength (text : List Char) : Nat :=
  match text with
  | mark :: rest =>
    if mark = 'e' ∨ mark = 'E' then
      let signs := match rest with
        | sign :: _ => if sign = '+' ∨ sign = '-' then 1 else 0
        | [] => 0
      let digits := ((rest.drop signs).takeWhile isDigit).length
      if digits = 0 then 0 else 1 + signs + digits
    else 0
  | [] => 0

/-- How many characters of a fraction follow, with its point; none without digits. -/
def fractionLength (text : List Char) : Nat :=
  match text with
  | '.' :: rest =>
    let digits := (rest.takeWhile isDigit).length
    if digits = 0 then 0 else 1 + digits
  | _ => 0

/-- A number: digits, then perhaps a fraction and an exponent. -/
def numberLexeme (first : Char) (rest : List Char) : Lexeme Token :=
  let digits := (rest.takeWhile isDigit).length
  let fraction := fractionLength (rest.drop digits)
  let exponent := exponentLength (rest.drop (digits + fraction))
  let more := digits + fraction + exponent
  let text := String.ofList (first :: rest.take more)
  .token (if fraction + exponent = 0 then .integer text else .decimal text) more

/-- How many characters a string has behind its opening quote; two quotes in a row do
not close it. `close` is where the last quote was that could close it. -/
def stringLength (count : Nat) (close : Option Nat) : List Char → Option Nat
  | [] => close
  | '\'' :: '\'' :: rest => stringLength (count + 2) (some (count + 1)) rest
  | '\'' :: _ => some (count + 1)
  | _ :: rest => stringLength (count + 1) close rest

/-- A string. One that is never closed reaches to the end of the text, unless a
doubled quote can close it. -/
def stringLexeme (rest : List Char) : Lexeme Token :=
  match stringLength 0 none rest with
  | some more => .token (.string (String.ofList ('\'' :: rest.take more))) more
  | none => .bad rest.length

/-- The longest token that starts with a character. -/
def lexeme (first : Char) (rest : List Char) : Lexeme Token :=
  match first, rest with
  | '(', _ => .token .openParen 0
  | ')', _ => .token .closeParen 0
  | ',', _ => .token .comma 0
  | '.', _ => .token .dot 0
  | '+', _ => .token .plus 0
  | '-', _ => .token .minus 0
  | '*', _ => .token .star 0
  | '/', _ => .token .slash 0
  | '%', _ => .token .percent 0
  | '=', '=' :: _ => .token .equal 1
  | '!', '=' :: _ => .token .unequal 1
  | '<', '=' :: _ => .token .lessEqual 1
  | '>', '=' :: _ => .token .greaterEqual 1
  | '<', _ => .token .less 0
  | '>', _ => .token .greater 0
  | '\'', rest => stringLexeme rest
  | '$', next :: rest =>
    if isWordStart next then
      let name := next :: rest.takeWhile isWordPart
      .token (.parameter (String.ofList name)) name.length
    else .bad 0
  | first, rest =>
    if isWordStart first then
      let others := rest.takeWhile isWordPart
      .token (.word (String.ofList (first :: others))) others.length
    else if isDigit first then numberLexeme first rest
    else .bad 0

/-- The tokens of an expression text. -/
def tokenize (text : String) : Except ReadError (List (Placed Token)) :=
  scan lexeme (fun piece => "unexpected character " ++ Text.Printable.quoted piece) text

end EventQuery.Reading
