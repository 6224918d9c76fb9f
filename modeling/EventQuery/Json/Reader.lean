import EventQuery.Json.Value
import EventQuery.Number.Reader

/-!
Reading JSON text. A document is one value with nothing but white space around
it. Numbers with a fraction or an exponent are read digit by digit into a
significand of 64 bits, which is then scaled by a power of ten; digits that do not
fit only move the decimal point. Containers nest at most `depthLimit` deep.
-/
namespace EventQuery.Json.Reader

open Number.Reader

/-- Reads one value and returns what follows it. -/
abbrev Item := List Char → Except Fault (Json × List Char)

def isSpace (c : Char) : Bool := c == ' ' || c == '\n' || c == '\t' || c == '\r'

def skipSpace (input : List Char) : List Char := input.dropWhile isSpace

/-! ### Strings -/

def hexValue? (c : Char) : Option Nat :=
  if '0' ≤ c ∧ c ≤ '9' then some (c.toNat - '0'.toNat)
  else if 'a' ≤ c ∧ c ≤ 'f' then some (c.toNat - 'a'.toNat + 10)
  else if 'A' ≤ c ∧ c ≤ 'F' then some (c.toNat - 'A'.toNat + 10)
  else none

/-- The code unit of four hexadecimal digits. -/
def unit? (a b c d : Char) : Option Nat := do
  let a ← hexValue? a
  let b ← hexValue? b
  let c ← hexValue? c
  let d ← hexValue? d
  pure (((a * 16 + b) * 16 + c) * 16 + d)

def isHighSurrogate (unit : Nat) : Bool := 0xD800 ≤ unit && unit < 0xDC00

def isLowSurrogate (unit : Nat) : Bool := 0xDC00 ≤ unit && unit < 0xE000

/-- The character behind a backslash that stands for one other than a code unit. -/
def escaped? (c : Char) : Option Char :=
  match c with
  | '"' => some '"'
  | '\\' => some '\\'
  | '/' => some '/'
  | 'b' => some '\x08'
  | 'f' => some '\x0c'
  | 'n' => some '\n'
  | 'r' => some '\r'
  | 't' => some '\t'
  | _ => none

def prepend (c : Char) (rest : Except Fault (List Char × List Char)) :
    Except Fault (List Char × List Char) :=
  rest.map fun (chars, after) => (c :: chars, after)

/-- The characters up to the closing quote. Surrogates have to come in pairs. -/
def characters : List Char → Except Fault (List Char × List Char)
  | [] => .error .malformed
  | '"' :: rest => .ok ([], rest)
  | '\\' :: 'u' :: a :: b :: c :: d :: rest =>
    match unit? a b c d with
    | none => .error .malformed
    | some unit =>
      if isLowSurrogate unit then .error .malformed
      else if isHighSurrogate unit then
        match rest with
        | '\\' :: 'u' :: e :: f :: g :: h :: rest =>
          match unit? e f g h with
          | none => .error .malformed
          | some low =>
            if isLowSurrogate low then
              let code := 0x10000 + (unit - 0xD800) * 0x400 + (low - 0xDC00)
              prepend (Char.ofNat code) (characters rest)
            else .error .malformed
        | _ => .error .malformed
      else prepend (Char.ofNat unit) (characters rest)
  | '\\' :: c :: rest =>
    match escaped? c with
    | some plain => prepend plain (characters rest)
    | none => .error .malformed
  | c :: rest =>
    if c = '\\' ∨ c.toNat < 0x20 then .error .malformed else prepend c (characters rest)

/-! ### Numbers -/

/-- Adds digits to a significand while it fits 64 bits, and counts those left over. -/
def gather : Nat → List Char → Nat × List Char
  | significand, [] => (significand, [])
  | significand, c :: rest =>
    let next := significand * 10 + digitValue c
    if next < 0x10000000000000000 then gather next rest else (significand, c :: rest)

/-- The widest power of ten that is applied in one step. -/
def stepExponent : Nat := 308

def powerOfTen (exponent : Nat) : Float := ofDecimal 1 exponent

/-- A number divided by `10 ^ exponent`, in steps of at most `stepExponent`. -/
def lower : Nat → Float → Nat → Float
  | 0, x, _ => x
  | fuel + 1, x, exponent =>
    if exponent ≤ stepExponent then x / powerOfTen exponent
    else if x == 0.0 then x
    else lower fuel (x / powerOfTen stepExponent) (exponent - stepExponent)

/-- A significand scaled by a power of ten; a number too large for the format is
refused. -/
def scale (significand : Nat) (exponent : Int) : Except Fault Float :=
  let x := Float.ofNat significand
  if exponent < 0 then .ok (lower (-exponent).toNat x (-exponent).toNat)
  else if exponent.toNat ≤ stepExponent then
    let scaled := x * powerOfTen exponent.toNat
    if Number.Binary64.isInfinite scaled then .error .malformed else .ok scaled
  else if significand = 0 then .ok x
  else .error .malformed

/-- The lexeme of a number: digits before and behind the point, and the exponent. -/
structure Lexeme where
  negative : Bool
  whole : List Char
  fraction : Option (List Char)
  exponent : Option Int

/-- The exponent behind a number: its sign may be missing, its digits may not. -/
def lexExponent (input : List Char) : Except Fault (Option Int × List Char) :=
  match input with
  | c :: rest =>
    if c = 'e' ∨ c = 'E' then
      let (negative, rest) := sign rest
      match natural? (rest.takeWhile isDigit) with
      | some n => .ok (some (if negative then -n else n), rest.dropWhile isDigit)
      | none => .error .malformed
    else .ok (none, input)
  | [] => .ok (none, input)

def lexFraction (input : List Char) : Except Fault (Option (List Char) × List Char) :=
  match input with
  | '.' :: rest =>
    let digits := rest.takeWhile isDigit
    if digits = [] then .error .malformed else .ok (some digits, rest.dropWhile isDigit)
  | _ => .ok (none, input)

def lexNumber (input : List Char) : Except Fault (Lexeme × List Char) := do
  let (negative, input) := match input with
    | '-' :: rest => (true, rest)
    | _ => (false, input)
  let whole := input.takeWhile isDigit
  if whole = [] ∨ (whole.head? = some '0' ∧ whole.length ≠ 1) then throw Fault.malformed
  let (fraction, input) ← lexFraction (input.dropWhile isDigit)
  let (exponent, input) ← lexExponent input
  pure (⟨negative, whole, fraction, exponent⟩, input)

/-- The value of a lexeme. Minus zero is no integer. Exponents beyond a 32-bit word
leave zero, or nothing if they are positive and the significand is not zero. -/
def Lexeme.value (lexeme : Lexeme) : Except Fault Json := do
  let n := digitsValue lexeme.whole
  let fits := if lexeme.negative then 0 < n ∧ n ≤ 0x8000000000000000 else n < 0x10000000000000000
  if lexeme.fraction.isNone ∧ lexeme.exponent.isNone ∧ fits then
    return .integer (if lexeme.negative then -n else n)
  let (significand, left) := gather 0 lexeme.whole
  let (significand, used) :=
    match lexeme.fraction with
    | none => (significand, 0)
    | some digits =>
      let (significand, surplus) := gather significand digits
      (significand, digits.length - surplus.length)
  let written := lexeme.exponent.getD 0
  let magnitude ←
    if 0x80000000 ≤ written.natAbs then
      if 0 < written ∧ significand ≠ 0 then throw Fault.malformed else pure 0.0
    else scale significand (left.length - used + written)
  return .decimal (if lexeme.negative then -magnitude else magnitude)

/-! ### Values -/

/-- Consumes a word such as `true`. -/
def word (name : String) (value : Json) : Item := fun input =>
  if name.toList.isPrefixOf input then .ok (value, input.drop name.length) else .error .malformed

/-- The remaining items of a list, the one before them already read. -/
def itemsAfter (item : Item) (input : List Char) :
    Except Fault (List Json × List Char) :=
  match skipSpace input with
  | ']' :: rest => .ok ([], rest)
  | ',' :: rest =>
    match item rest with
    | .error fault => .error fault
    | .ok (value, after) =>
      if after.length < input.length then
        (itemsAfter item after).map fun (items, rest) => (value :: items, rest)
      else .error .malformed
  | _ => .error .malformed
termination_by input.length

def items (item : Item) (input : List Char) :
    Except Fault (List Json × List Char) :=
  match skipSpace input with
  | ']' :: rest => .ok ([], rest)
  | rest => do
    let (value, rest) ← item rest
    let (values, rest) ← itemsAfter item rest
    pure (value :: values, rest)

/-- A name, a colon and a value. -/
def member (item : Item) (input : List Char) :
    Except Fault ((String × Json) × List Char) :=
  match skipSpace input with
  | '"' :: rest => do
    let (name, rest) ← characters rest
    match skipSpace rest with
    | ':' :: rest =>
      let (value, rest) ← item rest
      pure ((String.ofList name, value), rest)
    | _ => throw .malformed
  | _ => .error .malformed

def membersAfter (item : Item) (input : List Char) :
    Except Fault (List (String × Json) × List Char) :=
  match skipSpace input with
  | '}' :: rest => .ok ([], rest)
  | ',' :: rest =>
    match member item rest with
    | .error fault => .error fault
    | .ok (value, after) =>
      if after.length < input.length then
        (membersAfter item after).map fun (members, rest) => (value :: members, rest)
      else .error .malformed
  | _ => .error .malformed
termination_by input.length

def members (item : Item) (input : List Char) :
    Except Fault (List (String × Json) × List Char) :=
  match skipSpace input with
  | '}' :: rest => .ok ([], rest)
  | rest => do
    let (first, rest) ← member item rest
    let (others, rest) ← membersAfter item rest
    pure (first :: others, rest)

/-- A value whose containers hold what `item` reads. -/
def valueWith (item : Item) : Item := fun input =>
  match skipSpace input with
  | '[' :: rest => (items item rest).map fun (values, rest) => (.list values, rest)
  | '{' :: rest => (members item rest).map fun (values, rest) => (.object values, rest)
  | '"' :: rest => (characters rest).map fun (chars, rest) => (.text (String.ofList chars), rest)
  | 'n' :: rest => word "null" .null ('n' :: rest)
  | 't' :: rest => word "true" (.boolean true) ('t' :: rest)
  | 'f' :: rest => word "false" (.boolean false) ('f' :: rest)
  | rest => do
    let (lexeme, rest) ← lexNumber rest
    pure (← lexeme.value, rest)

/-- A value with at most this many containers inside each other. -/
def value : Nat → Item
  | 0, input =>
    match skipSpace input with
    | '[' :: _ => .error .tooDeep
    | '{' :: _ => .error .tooDeep
    | rest => valueWith (fun _ => .error .tooDeep) rest
  | depth + 1, input => valueWith (value depth) input

end Reader

/-- The value a text denotes. -/
def ofText (input : String) : Except Fault Json := do
  let (value, rest) ← Reader.value depthLimit input.toList
  if Reader.skipSpace rest = [] then pure value else throw .malformed

end EventQuery.Json
