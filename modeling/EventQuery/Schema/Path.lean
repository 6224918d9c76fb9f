import EventQuery.DataType

/-!
Places in a data model of nested relations. A relation doubles as an evaluation
point: an expression is evaluated once per row of the lowest relation its paths
live in. Two places share an axis when one relation contains the other.
-/
namespace EventQuery

structure FieldInfo where
  type : DataType
  /-- The field holds a list of values. -/
  isVector : Bool
  /-- The field orders the rows of its relation in time. -/
  isOrdinal : Bool
  deriving DecidableEq, Repr

inductive Path where
  | relation (segments : List String)
  | field (owner : List String) (name : String) (info : FieldInfo)
  deriving DecidableEq, Repr, Inhabited

namespace Path

/-- The path of a field; a field lives inside a relation. -/
def ofField? (segments : List String) (info : FieldInfo) : Option Path :=
  match segments.reverse with
  | name :: last :: owner => some (field (last :: owner).reverse name info)
  | _ => none

def segments : Path → List String
  | relation segments => segments
  | field owner name _ => owner ++ [name]

/-- The relation a path lives in: a relation itself, or the owner of a field. -/
def owner : Path → List String
  | relation segments => segments
  | field owner _ _ => owner

def name (path : Path) : String := path.segments.getLastD ""

def dotted (path : Path) : String := ".".intercalate path.segments

def isRelation : Path → Bool
  | relation _ => true
  | field .. => false

/-- Whether the path is an outermost relation. -/
def isRoot : Path → Bool
  | relation [_] => true
  | _ => false

def info? : Path → Option FieldInfo
  | relation _ => none
  | field _ _ info => some info

def type? (path : Path) : Option DataType := path.info?.map FieldInfo.type

def isVector (path : Path) : Bool := path.info?.any FieldInfo.isVector

def isOrdinal (path : Path) : Bool := path.info?.any FieldInfo.isOrdinal

/-- The relation a path lives in, as a path. -/
def home (path : Path) : Path := relation path.owner

/-- The relation around a relation, or the owner of a field: where the size of what
lies at the path is known. -/
def parent? : Path → Option Path
  | relation segments => if 1 < segments.length then some (relation segments.dropLast) else none
  | field owner _ _ => some (relation owner)

/-- Whether the relation of `a` is that of `b` or contains it. -/
def isAncestorOf (a b : Path) : Bool := a.owner.isPrefixOf b.owner

/-- Whether neither relation contains the other. -/
def areOffPath (a b : Path) : Bool := !a.isAncestorOf b && !b.isAncestorOf a

/-- The deeper of two relations on one chain. -/
def lowest? (a b : Path) : Option Path :=
  if a.isAncestorOf b then some b.home else if b.isAncestorOf a then some a.home else none

/-- The shallower of two relations on one chain. -/
def highest? (a b : Path) : Option Path :=
  if a.isAncestorOf b then some a.home else if b.isAncestorOf a then some b.home else none

/-- How many relations contain the relation of a path, itself included. -/
def depth (path : Path) : Nat := path.owner.length

end Path

end EventQuery
