import EventQuery.Calendar.Date
import EventQuery.Number.Reader
import EventQuery.Text.Blank

/-!
Instants as milliseconds since 1970-01-01T00:00:00 in universal time, and their
written form. Writing uses `YYYY-MM-DDTHH:MM:SS.mmmZ`. Reading first takes the
strict Internet form with a zone offset, then looser forms without one: a date and
a time joined by `T` or white space, or a date alone.
-/
namespace EventQuery.Calendar.Instant

open Number.Reader

def millisPerDay : Int := 86400000

/-- Milliseconds that belong to a date. -/
def InRange (ms : Int) : Prop := leastDay ≤ ms / millisPerDay ∧ ms / millisPerDay ≤ greatestDay

instance (ms : Int) : Decidable (InRange ms) := by
  unfold InRange
  infer_instance

/-! ### Writing -/

/-- A natural number with zeros in front up to `width` digits. -/
def padded (width n : Nat) : String :=
  let digits := toString n
  "".pushn '0' (width - digits.length) ++ digits

/-- Years of four digits stand alone, others carry a sign. -/
def yearText (year : Int) : String :=
  if 0 ≤ year ∧ year ≤ 9999 then padded 4 year.toNat
  else (if year < 0 then "-" else "+") ++ padded 4 year.natAbs

def dateText (date : Date) : String :=
  yearText date.year ++ "-" ++ padded 2 date.month ++ "-" ++ padded 2 date.day

def clockText (msOfDay : Nat) : String :=
  padded 2 (msOfDay / 3600000) ++ ":" ++ padded 2 (msOfDay / 60000 % 60) ++ ":"
    ++ padded 2 (msOfDay / 1000 % 60) ++ "." ++ padded 3 (msOfDay % 1000)

/-- The written form of an instant that belongs to a date. -/
def text? (ms : Int) : Option String :=
  if InRange ms then
    some (dateText (Date.ofDay (ms / millisPerDay)) ++ "T"
      ++ clockText (ms % millisPerDay).toNat ++ "Z")
  else none

/-! ### Reading -/

/-- A piece of text was read, with the text behind it. -/
abbrev Found (α : Type) := Option (α × List Char)

/-- At least `least` and at most `most` digits. -/
def number? (least : Nat) (most : Nat) (text : List Char) : Option (Nat × List Char) :=
  let digits := (text.take most).takeWhile isDigit
  if digits.length < least then none else some (digitsValue digits, text.drop digits.length)

/-- All digits of a run, at least one. -/
def longNumber? (text : List Char) : Option (Nat × List Char) := number? 1 text.length text

def mark? (c : Char) : List Char → Option (List Char)
  | d :: rest => if c = d then some rest else none
  | [] => none

/-- Milliseconds of a fraction; digits beyond the ninth count for nothing, and the
rest is cut to milliseconds. -/
def fraction? (text : List Char) : Option (Nat × List Char) :=
  match text with
  | '.' :: rest =>
    let digits := rest.takeWhile isDigit
    if digits = [] then none
    else
      let first := digits.take 3
      some (digitsValue first * Number.tenTo (3 - first.length), rest.dropWhile isDigit)
  | _ => some (0, text)

/-- A time of day; second 60 is the first second of the next minute. -/
def clock? (hour minute second ms : Nat) : Option Int :=
  if hour ≤ 23 ∧ minute ≤ 59 ∧ second ≤ 60 then
    some (((hour * 60 + minute) * 60 + second) * 1000 + ms : Nat)
  else none

def date? (year : Int) (month day : Nat) : Option Int :=
  let date : Date := ⟨year, month, day⟩
  if date.IsValid then some date.toDay else none

def pair? (text : List Char) : Option (Nat × List Char) := number? 2 2 text

/-- The sign of a zone offset; the mathematical minus sign counts too. -/
def offsetSign? : List Char → Option (Int × List Char)
  | '+' :: rest => some (1, rest)
  | '-' :: rest => some (-1, rest)
  | '\u2212' :: rest => some (-1, rest)
  | _ => none

/-- Seconds a zone is ahead, less than a day either way. -/
def offset? (text : List Char) : Option (Int × List Char) :=
  match text with
  | 'Z' :: rest => some (0, rest)
  | 'z' :: rest => some (0, rest)
  | _ => do
    let (sign, text) ← offsetSign? text
    let (hours, text) ← pair? text
    let text ← mark? ':' text
    let (minutes, text) ← pair? text
    if hours ≤ 23 ∧ minutes ≤ 59 then some (sign * (hours * 3600 + minutes * 60 : Nat), text)
    else none

/-- The strict form: fixed widths, `T`, `t` or one space, and a zone offset. -/
def strict? (text : List Char) : Option Int := do
  let (year, text) ← number? 4 4 text
  let text ← mark? '-' text
  let (month, text) ← pair? text
  let text ← mark? '-' text
  let (day, text) ← pair? text
  let text ← match text with
    | 'T' :: rest => some rest
    | 't' :: rest => some rest
    | ' ' :: rest => some rest
    | _ => none
  let (hour, text) ← pair? text
  let text ← mark? ':' text
  let (minute, text) ← pair? text
  let text ← mark? ':' text
  let (second, text) ← pair? text
  let (ms, text) ← fraction? text
  let (offset, text) ← offset? text
  let day ← date? year month day
  let clock ← clock? hour minute second ms
  if text = [] then some (day * millisPerDay + clock - offset * 1000) else none

/-- A year with an optional sign, which it needs beyond four digits. White space may
stand before every number of the looser forms. -/
def looseYear? (text : List Char) : Option (Int × List Char) :=
  match Text.Blank.trimStart text with
  | '-' :: rest => (longNumber? rest).map fun (year, rest) => (-year, rest)
  | '+' :: rest => (longNumber? rest).map fun (year, rest) => (year, rest)
  | rest => (number? 1 4 rest).map fun (year, rest) => (year, rest)

def loosePair? (text : List Char) : Option (Nat × List Char) :=
  number? 1 2 (Text.Blank.trimStart text)

def looseDate? (text : List Char) : Option (Int × List Char) := do
  let (year, text) ← looseYear? text
  let text ← mark? '-' text
  let (month, text) ← loosePair? text
  let text ← mark? '-' text
  let (day, text) ← loosePair? text
  pure (← date? year month day, text)

def looseClock? (text : List Char) : Option (Int × List Char) := do
  let (hour, text) ← loosePair? text
  let text ← mark? ':' text
  let (minute, text) ← loosePair? text
  let text ← mark? ':' text
  let (second, text) ← loosePair? text
  let (ms, text) ← fraction? text
  pure (← clock? hour minute second ms, text)

/-- A date, whatever `joint` accepts, and a time. -/
def looseMoment? (joint : List Char → Option (List Char)) (text : List Char) : Option Int := do
  let (day, text) ← looseDate? text
  let text ← joint text
  let (clock, text) ← looseClock? text
  if text = [] then some (day * millisPerDay + clock) else none

def looseDay? (text : List Char) : Option Int := do
  let (day, text) ← looseDate? text
  if text = [] then some (day * millisPerDay) else none

/-- The instant a text denotes; without an offset it is taken in universal time. -/
def parse? (text : String) : Option Int :=
  let chars := text.toList
  strict? chars
    <|> looseMoment? (mark? 'T') chars
    <|> looseMoment? (fun rest => some (Text.Blank.trimStart rest)) chars
    <|> looseDay? chars

end EventQuery.Calendar.Instant
