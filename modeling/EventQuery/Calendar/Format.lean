import EventQuery.Calendar.Zone
import EventQuery.Calendar.Instant

/-!
Instants in a format of the reader's choice. A format is a text in which `%` and the
characters behind it stand for a component of the local time; anything else stands
for itself. A format with an unknown component is no format.
-/
namespace EventQuery.Calendar.Format

/-- What fills a number up to its width. -/
inductive Padding where
  | none | zero | space
  deriving DecidableEq, Repr

/-- Components that are numbers. -/
inductive NumberField where
  | year | century | yearOfCentury | weekYear | weekYearOfCentury | quarter | month | day
  | weekFromSunday | weekFromMonday | week | daysFromSunday | dayFromMonday | dayOfYear
  | hour | hourOfHalf | minute | second | nanosecond | timestamp
  deriving DecidableEq, Repr

inductive Item where
  | text (c : Char)
  | number (field : NumberField) (padding : Padding)
  | weekday (short : Bool)
  | monthName (short : Bool)
  | half (upper : Bool)
  /-- The fraction of the second, with a point and only if there is one. -/
  | fraction
  | fractionDigits (point : Bool) (digits : Nat)
  | zoneName
  /-- The offset from universal time: its parts, and whether colons are between them. -/
  | offset (parts : Nat) (colons : Bool)
  | internet
  deriving DecidableEq, Repr

/-! ### Reading a format -/

def clock : List Item :=
  [.number .hour .zero, .text ':', .number .minute .zero, .text ':', .number .second .zero]

def monthDayYear : List Item :=
  [.number .month .zero, .text '/', .number .day .zero, .text '/', .number .yearOfCentury .zero]

/-- The number that a letter stands for, with its usual padding. -/
def numberOf? : Char → Option (NumberField × Padding)
  | 'Y' => some (.year, .zero)
  | 'C' => some (.century, .zero)
  | 'y' => some (.yearOfCentury, .zero)
  | 'G' => some (.weekYear, .zero)
  | 'g' => some (.weekYearOfCentury, .zero)
  | 'q' => some (.quarter, .none)
  | 'm' => some (.month, .zero)
  | 'd' => some (.day, .zero)
  | 'e' => some (.day, .space)
  | 'U' => some (.weekFromSunday, .zero)
  | 'W' => some (.weekFromMonday, .zero)
  | 'V' => some (.week, .zero)
  | 'w' => some (.daysFromSunday, .none)
  | 'u' => some (.dayFromMonday, .none)
  | 'j' => some (.dayOfYear, .zero)
  | 'H' => some (.hour, .zero)
  | 'k' => some (.hour, .space)
  | 'I' => some (.hourOfHalf, .zero)
  | 'l' => some (.hourOfHalf, .space)
  | 'M' => some (.minute, .zero)
  | 'S' => some (.second, .zero)
  | 'f' => some (.nanosecond, .zero)
  | 's' => some (.timestamp, .none)
  | _ => none

/-- What other letters stand for. -/
def itemsOf? : Char → Option (List Item)
  | 'A' => some [.weekday false]
  | 'a' => some [.weekday true]
  | 'B' => some [.monthName false]
  | 'b' => some [.monthName true]
  | 'h' => some [.monthName true]
  | 'P' => some [.half false]
  | 'p' => some [.half true]
  | 'Z' => some [.zoneName]
  | 'z' => some [.offset 2 false]
  | '+' => some [.internet]
  | 'D' => some monthDayYear
  | 'x' => some monthDayYear
  | 'T' => some clock
  | 'X' => some clock
  | 'R' => some [.number .hour .zero, .text ':', .number .minute .zero]
  | 'F' =>
    some [.number .year .zero, .text '-', .number .month .zero, .text '-', .number .day .zero]
  | 'r' =>
    some [.number .hourOfHalf .zero, .text ':', .number .minute .zero, .text ':',
      .number .second .zero, .text ' ', .half true]
  | 'c' =>
    some ([.weekday true, .text ' ', .monthName true, .text ' ', .number .day .space, .text ' ']
      ++ clock ++ [.text ' ', .number .year .zero])
  | 'v' =>
    some [.number .day .space, .text '-', .monthName true, .text '-', .number .year .zero]
  | 'n' => some [.text '\n']
  | 't' => some [.text '\t']
  | '%' => some [.text '%']
  | _ => none

def paddingOf? : Char → Option Padding
  | '-' => some .none
  | '0' => some .zero
  | '_' => some .space
  | _ => none

/-- What stands behind a percent sign, and the rest of the format. -/
def directive? : List Char → Option (List Item × List Char)
  | '.' :: 'f' :: rest => some ([.fraction], rest)
  | '.' :: '3' :: 'f' :: rest => some ([.fractionDigits true 3], rest)
  | '.' :: '6' :: 'f' :: rest => some ([.fractionDigits true 6], rest)
  | '.' :: '9' :: 'f' :: rest => some ([.fractionDigits true 9], rest)
  | '3' :: 'f' :: rest => some ([.fractionDigits false 3], rest)
  | '6' :: 'f' :: rest => some ([.fractionDigits false 6], rest)
  | '9' :: 'f' :: rest => some ([.fractionDigits false 9], rest)
  | ':' :: 'z' :: rest => some ([.offset 2 true], rest)
  | ':' :: ':' :: 'z' :: rest => some ([.offset 3 true], rest)
  | ':' :: ':' :: ':' :: 'z' :: rest => some ([.offset 1 true], rest)
  | c :: rest =>
    match paddingOf? c, rest with
    | some padding, letter :: rest =>
      (numberOf? letter).map fun (field, _) => ([.number field padding], rest)
    | some _, [] => none
    | none, rest =>
      match numberOf? c with
      | some (field, padding) => some ([.number field padding], rest)
      | none => (itemsOf? c).map fun items => (items, rest)
  | [] => none

/-- The items of a format; every round reads at least a character. -/
def itemsWithin? : Nat → List Char → Option (List Item)
  | 0, _ => some []
  | _, [] => some []
  | rounds + 1, '%' :: rest => do
    let (items, rest) ← directive? rest
    return items ++ (← itemsWithin? rounds rest)
  | rounds + 1, c :: rest => do
    return .text c :: (← itemsWithin? rounds rest)

def items? (format : String) : Option (List Item) :=
  itemsWithin? format.length format.toList

/-! ### Writing -/

/-- What the clocks of a place show, and how they differ from universal time. -/
structure Stamp where
  /-- Milliseconds that the local clock shows since 1970. -/
  time : Int
  /-- Seconds that the local clock is ahead. -/
  offset : Int
  zone : String
  deriving DecidableEq, Repr

namespace Stamp

def day (stamp : Stamp) : Int := stamp.time / Instant.millisPerDay

def date (stamp : Stamp) : Date := Date.ofDay stamp.day

/-- Milliseconds since midnight. -/
def clock (stamp : Stamp) : Nat := (stamp.time % Instant.millisPerDay).toNat

def hour (stamp : Stamp) : Nat := stamp.clock / 3600000

def minute (stamp : Stamp) : Nat := stamp.clock / 60000 % 60

def second (stamp : Stamp) : Nat := stamp.clock / 1000 % 60

def millis (stamp : Stamp) : Nat := stamp.clock % 1000

end Stamp

/-- Digits with padding in front; a sign goes before zeros and behind blanks. -/
def padded (padding : Padding) (width : Nat) (sign digits : String) : String :=
  let missing := width - (sign.length + digits.length)
  match padding with
  | .none => sign ++ digits
  | .zero => sign ++ "".pushn '0' missing ++ digits
  | .space => "".pushn ' ' missing ++ sign ++ digits

def signed (padding : Padding) (width : Nat) (value : Int) : String :=
  padded padding width (if value < 0 then "-" else "") (toString value.natAbs)

/-- A year has four digits; outside of these years it has a sign. -/
def yearText (padding : Padding) (year : Int) : String :=
  if 0 ≤ year ∧ year ≤ 9999 then signed padding 4 year
  else padded padding 5 (if year < 0 then "-" else "+") (toString year.natAbs)

/-- A number of two digits, kept in a byte: from 100 on the first digit is the character
that many places behind the digit zero. -/
def twoDigits (padding : Padding) (value : Int) : String :=
  let byte := (value % 256).toNat
  let ones := toString (byte % 10)
  match byte / 10, padding with
  | 0, .none => ones
  | 0, .space => " " ++ ones
  | tens, _ => String.singleton (Char.ofNat ('0'.toNat + tens)) ++ ones

/-- Days since Sunday. -/
def daysFromSunday (day : Int) : Int := (daysFromMonday day + 1) % 7

/-- The number of a week when weeks start `shift` days before the given day. -/
def weekFrom (day shift : Int) : Int := (dayOfYear day - shift + 6) / 7

def numberText (stamp : Stamp) (padding : Padding) : NumberField → String
  | .year => yearText padding stamp.date.year
  | .century => twoDigits padding (stamp.date.year / 100)
  | .yearOfCentury => twoDigits padding (stamp.date.year % 100)
  | .weekYear => yearText padding (weekYear stamp.day)
  | .weekYearOfCentury => twoDigits padding (weekYear stamp.day % 100)
  | .quarter => toString ((stamp.date.month - 1) / 3 + 1)
  | .month => twoDigits padding stamp.date.month
  | .day => twoDigits padding stamp.date.day
  | .weekFromSunday => twoDigits padding (weekFrom stamp.day (daysFromSunday stamp.day))
  | .weekFromMonday => twoDigits padding (weekFrom stamp.day (daysFromMonday stamp.day))
  | .week => twoDigits padding (weekOfYear stamp.day)
  | .daysFromSunday => toString (daysFromSunday stamp.day)
  | .dayFromMonday => toString (daysFromMonday stamp.day + 1)
  | .dayOfYear => signed padding 3 (dayOfYear stamp.day)
  | .hour => twoDigits padding stamp.hour
  | .hourOfHalf => twoDigits padding ((stamp.hour + 11) % 12 + 1 : Nat)
  | .minute => twoDigits padding stamp.minute
  | .second => twoDigits padding stamp.second
  | .nanosecond => signed padding 9 (stamp.millis * 1000000 : Nat)
  | .timestamp => signed padding 9 ((stamp.time - stamp.offset * 1000) / 1000)

def weekdayName (daysFromMonday : Int) : String :=
  match daysFromMonday with
  | 0 => "Monday"
  | 1 => "Tuesday"
  | 2 => "Wednesday"
  | 3 => "Thursday"
  | 4 => "Friday"
  | 5 => "Saturday"
  | _ => "Sunday"

def monthName (month : Nat) : String :=
  match month with
  | 1 => "January"
  | 2 => "February"
  | 3 => "March"
  | 4 => "April"
  | 5 => "May"
  | 6 => "June"
  | 7 => "July"
  | 8 => "August"
  | 9 => "September"
  | 10 => "October"
  | 11 => "November"
  | _ => "December"

/-- Short names have three letters. -/
def shortened (short : Bool) (name : String) : String :=
  if short then String.ofList (name.toList.take 3) else name

/-- The fraction of a second, if it is not zero. -/
def fractionText (stamp : Stamp) : String :=
  if stamp.millis = 0 then "" else "." ++ Instant.padded 3 stamp.millis

def offsetText (offset : Int) (parts : Nat) (colons : Bool) : String :=
  let seconds := offset.natAbs
  let separator := if colons then ":" else ""
  let two := Instant.padded 2
  let texts := [two (seconds / 3600), two (seconds / 60 % 60), two (seconds % 60)]
  (if offset < 0 then "-" else "+") ++ separator.intercalate (texts.take parts)

/-- The form of Internet timestamps. -/
def internetText (stamp : Stamp) : String :=
  let two := Instant.padded 2
  Instant.dateText stamp.date ++ "T" ++ two stamp.hour ++ ":" ++ two stamp.minute ++ ":"
    ++ two stamp.second ++ fractionText stamp ++ offsetText stamp.offset 2 true

def itemText (stamp : Stamp) : Item → String
  | .text c => String.singleton c
  | .number field padding => numberText stamp padding field
  | .weekday short => shortened short (weekdayName (daysFromMonday stamp.day))
  | .monthName short => shortened short (monthName stamp.date.month)
  | .half upper =>
    match upper, decide (stamp.hour < 12) with
    | true, true => "AM"
    | true, false => "PM"
    | false, true => "am"
    | false, false => "pm"
  | .fraction => fractionText stamp
  | .fractionDigits point digits =>
    (if point then "." else "") ++ Instant.padded digits (stamp.millis * Number.tenTo (digits - 3))
  | .zoneName => stamp.zone
  | .offset parts colons => offsetText stamp.offset parts colons
  | .internet => internetText stamp

/-- An instant that belongs to a date, in a zone, by a format. -/
def text? (ms : Int) (format : String) (zone : TimeZone) : Option String := do
  guard (Instant.InRange ms)
  let clock := zone.clockAt ms
  let stamp : Stamp := ⟨zone.localTime ms, clock.offset, clock.letters⟩
  return String.join ((← items? format).map (itemText stamp))

end EventQuery.Calendar.Format
