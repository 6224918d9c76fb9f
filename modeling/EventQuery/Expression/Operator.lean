import EventQuery.Calendar.Unit
import EventQuery.DataType

/-!
The operators of expressions, each with the word or symbol it is written with and
the name it has in the structured form.
-/
namespace EventQuery

/-! ### Predicates -/

inductive Connective where
  | and | or
  deriving DecidableEq, Repr

namespace Connective

def all : List Connective := [and, or]

def keyword : Connective → String
  | and => "AND"
  | or => "OR"

end Connective

inductive BoundsOp where
  | between | notBetween
  deriving DecidableEq, Repr

namespace BoundsOp

def all : List BoundsOp := [between, notBetween]

def name : BoundsOp → String
  | between => "BETWEEN"
  | notBetween => "NOT_BETWEEN"

def keyword : BoundsOp → String
  | between => "BETWEEN"
  | notBetween => "NOT BETWEEN"

end BoundsOp

inductive NullTestOp where
  | isNull | isNotNull
  deriving DecidableEq, Repr

namespace NullTestOp

def all : List NullTestOp := [isNull, isNotNull]

def name : NullTestOp → String
  | isNull => "IS_NULL"
  | isNotNull => "IS_NOT_NULL"

def keyword : NullTestOp → String
  | isNull => "IS NULL"
  | isNotNull => "IS NOT NULL"

end NullTestOp

/-- Which end of the rows of a relation a boundary stands for. -/
inductive Edge where
  | start | stop
  deriving DecidableEq, Repr

namespace Edge

def all : List Edge := [start, stop]

def keyword : Edge → String
  | start => "START"
  | stop => "END"

end Edge

/-! ### Values -/

inductive Sign where
  | minus | plus
  deriving DecidableEq, Repr

namespace Sign

def all : List Sign := [minus, plus]

def name : Sign → String
  | minus => "NEGATE"
  | plus => "NORMAL"

def symbol : Sign → String
  | minus => "-"
  | plus => "+"

end Sign

/-- Conversions between counts of a unit, milliseconds and instants. -/
inductive Conversion where
  | seconds | minutes | hours | days | weeks | toDatetime | toMillis
  deriving DecidableEq, Repr

namespace Conversion

def all : List Conversion := [seconds, minutes, hours, days, weeks, toDatetime, toMillis]

def keyword : Conversion → String
  | seconds => "SECONDS"
  | minutes => "MINUTES"
  | hours => "HOURS"
  | days => "DAYS"
  | weeks => "WEEKS"
  | toDatetime => "TO_DATETIME"
  | toMillis => "TO_MILLIS"

/-- The milliseconds of a unit, for the conversions that count one. -/
def millis? : Conversion → Option Int
  | seconds => some 1000
  | minutes => some 60000
  | hours => some 3600000
  | days => some 86400000
  | weeks => some 604800000
  | toDatetime => none
  | toMillis => none

end Conversion

/-- What is taken of an instant: the start of a bucket, or one component. -/
inductive Quantum where
  | truncate (unit : TimeUnit)
  | extract (part : TimePart)
  deriving DecidableEq, Repr

namespace Quantum

def keyword : Quantum → String
  | truncate _ => "TRUNCATE"
  | extract _ => "EXTRACT"

def unitKeyword : Quantum → String
  | truncate unit => unit.keyword
  | extract part => part.keyword

end Quantum

inductive AggregationOp where
  | count | sum | min | max | unique | top
  deriving DecidableEq, Repr

namespace AggregationOp

def all : List AggregationOp := [count, sum, min, max, unique, top]

def keyword : AggregationOp → String
  | count => "COUNT"
  | sum => "SUM"
  | min => "MIN"
  | max => "MAX"
  | unique => "UNIQUE"
  | top => "TOP"

end AggregationOp

end EventQuery
