import EventQuery.Diagnostic.Basic

/-!
What the readers share: the division of a text into tokens with their spans, and a
cursor over the tokens. Reading moves the cursor forward only.
-/
namespace EventQuery

/-- Why a text cannot be read, and where. -/
structure ReadError where
  span : Span
  message : String
  deriving DecidableEq, Repr

namespace ReadError

def display (error : ReadError) : String :=
  s!"{error.message} at {error.span.start}..{error.span.stop}"

def diagnostic (error : ReadError) : Diagnostic := .of .syntaxDefect error.span error.message

end ReadError

namespace Reading

/-- A token with its place in the text. -/
structure Placed (τ : Type) where
  token : τ
  span : Span
  deriving DecidableEq, Repr

def byteLength : List Char → Nat
  | [] => 0
  | c :: rest => c.utf8Size + byteLength rest

/-- White space between tokens. -/
def isSpace (c : Char) : Bool := c == ' ' || c == '\t' || c == '\n' || c == '\r'

/-- What stands at a place that is no white space: a token or a bad piece of text. It
takes the first character and `more` characters behind it. -/
inductive Lexeme (τ : Type) where
  | token (token : τ) (more : Nat)
  | bad (more : Nat)
  deriving DecidableEq, Repr

/-- The tokens of a text that starts at byte `offset`. -/
def scanFrom (lexeme : Char → List Char → Lexeme τ) (complaint : String → String)
    (offset : Nat) : List Char → Except ReadError (List (Placed τ))
  | [] => .ok []
  | c :: rest =>
    if isSpace c then scanFrom lexeme complaint (offset + c.utf8Size) rest
    else
      match lexeme c rest with
      | .token token more => do
        let stop := offset + byteLength (c :: rest.take more)
        let others ← scanFrom lexeme complaint stop (rest.drop more)
        return ⟨token, ⟨offset, stop⟩⟩ :: others
      | .bad more =>
        let piece := c :: rest.take more
        .error ⟨⟨offset, offset + byteLength piece⟩, complaint (String.ofList piece)⟩
  termination_by chars => chars.length

/-- The tokens of a text. -/
def scan (lexeme : Char → List Char → Lexeme τ) (complaint : String → String) (text : String) :
    Except ReadError (List (Placed τ)) :=
  scanFrom lexeme complaint 0 text.toList

/-- The tokens that are still to be read. -/
structure Cursor (τ : Type) where
  rest : List (Placed τ)
  /-- Where the last token that was read ends. -/
  last : Nat
  /-- Where the text ends. -/
  stop : Nat
  deriving DecidableEq, Repr

/-- A step of reading: it moves the cursor, or fails. -/
abbrev Reader (τ α : Type) := StateT (Cursor τ) (Except ReadError) α

/-- How deep productions may be nested. -/
def nestingLimit : Nat := 256

namespace Reader

def remaining : Reader τ Nat := do return (← get).rest.length

def peek? : Reader τ (Option τ) := do return (← get).rest.head?.map Placed.token

/-- The token behind the next one. -/
def second? : Reader τ (Option τ) := do return (← get).rest[1]?.map Placed.token

/-- The span of the next token; at the end of the text, the empty span there. -/
def place : Reader τ Span := do
  let cursor ← get
  return match cursor.rest with
    | next :: _ => next.span
    | [] => ⟨cursor.stop, cursor.stop⟩

/-- Where the next token starts. -/
def start : Reader τ Nat := do return (← place).start

/-- The span from `start` to the end of the last token that was read. -/
def spanFrom (start : Nat) : Reader τ Span := do
  return ⟨start, max start (← get).last⟩

/-- Moves behind the next token. -/
def advance : Reader τ Unit := modify fun cursor =>
  match cursor.rest with
  | next :: rest => { cursor with rest, last := next.span.stop }
  | [] => cursor

/-- Whether the next token is `token`; if it is, moves behind it. -/
def skip [DecidableEq τ] (token : τ) : Reader τ Bool := do
  if (← peek?) = some token then
    advance
    return true
  else return false

def fail (span : Span) (message : String) : Reader τ α := throw ⟨span, message⟩

/-- The failure of a production that is nested too deep. -/
def tooDeep : Reader τ α := do fail (← place) s!"nesting deeper than {nestingLimit}"

/-- Reads all of a list of tokens. -/
def run (reader : Reader τ α) (tokens : List (Placed τ)) (stop : Nat) : Except ReadError α :=
  (reader.run' ⟨tokens, 0, stop⟩ : Except ReadError α)

end Reader

end Reading

end EventQuery
