/-!
Data types and the operators between them. Numbers widen along `BYTE`, `SHORT`,
`INTEGER`, `LONG`, `DOUBLE`; `NULL` goes with any type, and `DATETIME` goes with
the integral ones.
-/
namespace EventQuery

inductive DataType where
  | boolean | byte | short | integer | long | double | string | null | datetime
  deriving DecidableEq, Repr, Inhabited

namespace DataType

def all : List DataType :=
  [boolean, byte, short, integer, long, double, string, null, datetime]

def name : DataType → String
  | boolean => "BOOLEAN"
  | byte => "BYTE"
  | short => "SHORT"
  | integer => "INTEGER"
  | long => "LONG"
  | double => "DOUBLE"
  | string => "STRING"
  | null => "NULL"
  | datetime => "DATETIME"

/-- The type a name denotes, whatever the case of its letters. -/
def ofName? (name : String) : Option DataType :=
  all.find? fun type => type.name.map Char.toLower == name.map Char.toLower

/-- Position in the order of widening; types that are not numeric have none. -/
def rank? : DataType → Option Nat
  | byte => some 0
  | short => some 1
  | integer => some 2
  | long => some 3
  | double => some 4
  | _ => none

def isNumeric (type : DataType) : Bool := type.rank?.isSome

def isIntegral : DataType → Bool
  | byte | short | integer | long => true
  | _ => false

/-- Types with `<`, `<=`, `>`, `>=` and `BETWEEN`. -/
def isOrderable (type : DataType) : Bool :=
  type.isNumeric || type == string || type == datetime || type == null

/-- The narrowest type in which values of both types can be compared. -/
def common? (a b : DataType) : Option DataType :=
  if a = b then some a
  else if a = null then some b
  else if b = null then some a
  else if a = datetime ∧ b.isIntegral ∨ b = datetime ∧ a.isIntegral then some datetime
  else
    match a.rank?, b.rank? with
    | some i, some j => some (if j ≤ i then a else b)
    | _, _ => none

/-- Casts between these types may work for some values; others never do. -/
def isLegalCast (source target : DataType) : Bool :=
  !(target == null || (source == boolean && target == datetime)
    || (source == datetime && target == boolean))

end DataType

inductive Arithmetic where
  | add | subtract | multiply | divide | modulo
  deriving DecidableEq, Repr

namespace Arithmetic

def all : List Arithmetic := [add, subtract, multiply, divide, modulo]

def name : Arithmetic → String
  | add => "ADD"
  | subtract => "SUBTRACT"
  | multiply => "MULTIPLY"
  | divide => "DIVIDE"
  | modulo => "MODULO"

def symbol : Arithmetic → String
  | add => "+"
  | subtract => "-"
  | multiply => "*"
  | divide => "/"
  | modulo => "%"

/-- The type of the result for operands of which neither is `NULL`. -/
def knownType? (op : Arithmetic) (a b : DataType) : Option DataType :=
  if a = .datetime ∧ b = .datetime then if op = subtract then some .long else none
  else if a = .datetime ∧ b.isIntegral then
    if op = add ∨ op = subtract then some .datetime else none
  else if b = .datetime ∧ a.isIntegral then if op = add then some .datetime else none
  else if a = .double ∧ b.isNumeric ∨ b = .double ∧ a.isNumeric then some .double
  else if a.isIntegral ∧ b.isIntegral then some .long
  else none

/-- The type of the result. A `NULL` operand takes the type of the other one; where
two instants do not go with the operator, the result is an instant all the same. -/
def type? (op : Arithmetic) (a b : DataType) : Option DataType :=
  if a = .null ∧ b = .null then some .null
  else if a = .null ∨ b = .null then
    let other := if a = .null then b else a
    (op.knownType? other other).or (if other = .datetime then some .datetime else none)
  else op.knownType? a b

end Arithmetic

inductive Relation where
  | eq | neq | lt | lte | gt | gte
  deriving DecidableEq, Repr

namespace Relation

def all : List Relation := [eq, neq, lt, lte, gt, gte]

def name : Relation → String
  | eq => "EQ"
  | neq => "NEQ"
  | lt => "LT"
  | lte => "LTE"
  | gt => "GT"
  | gte => "GTE"

def symbol : Relation → String
  | eq => "=="
  | neq => "!="
  | lt => "<"
  | lte => "<="
  | gt => ">"
  | gte => ">="

/-- Whether the operator needs an order and not only equality. -/
def isOrdering : Relation → Bool
  | eq | neq => false
  | _ => true

/-- The operator applied to the outcome of a comparison. Unordered values satisfy
only `!=`. -/
def holds (op : Relation) : Option Ordering → Bool
  | none => op == neq
  | some ordering =>
    match op with
    | eq => ordering == .eq
    | neq => ordering != .eq
    | lt => ordering == .lt
    | lte => ordering != .gt
    | gt => ordering == .gt
    | gte => ordering != .lt

/-- The operator with its operands swapped. -/
def flipped : Relation → Relation
  | lt => gt
  | lte => gte
  | gt => lt
  | gte => lte
  | eq => eq
  | neq => neq

end Relation

end EventQuery
