import EventQuery.Number.Binary64
import EventQuery.Number.Shortest

/-!
Reading numbers from text. Integers are an optional sign and ASCII digits.
Decimals are rounded once to the nearest floating-point number; besides digits
they may be spelled `inf`, `infinity` or `nan` in any case.
-/
namespace EventQuery.Number.Reader

open Binary64 Shortest

def isDigit (c : Char) : Bool := '0' ≤ c && c ≤ '9'

def digitValue (c : Char) : Nat := c.toNat - '0'.toNat

/-- The value of a run of digits. -/
def digitsValue (digits : List Char) : Nat :=
  digits.foldl (fun value c => value * 10 + digitValue c) 0

def natural? (text : List Char) : Option Nat :=
  if text ≠ [] ∧ text.all isDigit then some (digitsValue text) else none

/-- An optional sign: whether it is a minus, and the text behind it. -/
def sign : List Char → Bool × List Char
  | '-' :: rest => (true, rest)
  | '+' :: rest => (false, rest)
  | text => (false, text)

def integer? (text : List Char) : Option Int :=
  let (negative, digits) := sign text
  (natural? digits).map fun n => if negative then -n else n

/-- Decimal numbers beyond `10 ^ 310` are infinite, those below `10 ^ -330` zero. -/
def ofDecimal (digits : Nat) (exponent : Int) : Float :=
  let leading : Int := digitCount digits + exponent
  if digits = 0 ∨ leading < -330 then 0.0
  else if 310 < leading then infinity
  else ofFraction (digits * tenTo exponent.toNat) (tenTo (-exponent).toNat)

/-- The exponent part of a decimal: nothing, or `e` and a signed integer. -/
def exponent? : List Char → Option Int
  | [] => some 0
  | c :: rest => if c = 'e' ∨ c = 'E' then integer? rest else none

/-- Digits with at most one point among or around them, and an exponent. -/
def unsigned? (text : List Char) : Option Float :=
  let whole := text.takeWhile isDigit
  let (fraction, rest) := match text.dropWhile isDigit with
    | '.' :: rest => (rest.takeWhile isDigit, rest.dropWhile isDigit)
    | rest => ([], rest)
  if whole = [] ∧ fraction = [] then none
  else
    (exponent? rest).map fun exponent =>
      ofDecimal (digitsValue (whole ++ fraction)) (exponent - fraction.length)

def decimal? (text : List Char) : Option Float :=
  let (negative, body) := sign text
  let word := String.ofList (body.map Char.toLower)
  let magnitude :=
    if word = "inf" ∨ word = "infinity" then some infinity
    else if word = "nan" then some notANumber
    else unsigned? body
  magnitude.map fun x => if negative then -x else x

end EventQuery.Number.Reader
