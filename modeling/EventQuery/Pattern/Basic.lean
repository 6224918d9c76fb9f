import EventQuery.Diagnostic.Span

/-!
Match patterns of funnels: regular patterns over step ids. Every node says whether it
captures the steps it matches.
-/
namespace EventQuery

/-- How the items of a list belong together: one after the other, or one of them. -/
inductive ListOp where
  | sequence | alternatives
  deriving DecidableEq, Repr

namespace ListOp

def all : List ListOp := [sequence, alternatives]

def name : ListOp → String
  | sequence => "AND"
  | alternatives => "OR"

def title : ListOp → String
  | sequence => "And"
  | alternatives => "Or"

def separator : ListOp → String
  | sequence => ":"
  | alternatives => " | "

end ListOp

inductive Pattern where
  | step (span : Span) (id : Int64) (capturing : Bool)
  | list (span : Span) (op : ListOp) (items : List Pattern) (capturing : Bool)
  /-- `child` from `least` to `most` times; without `most` there is no limit. -/
  | repetition (span : Span) (least : Int64) (most : Option Int64) (child : Pattern)
    (capturing : Bool)
  /-- One of the steps, or if it is negating, a step that is none of them. -/
  | bracket (span : Span) (negating : Bool) (steps : List Int64) (capturing : Bool)
  deriving Inhabited

namespace Pattern

def span : Pattern → Span
  | step span .. => span
  | list span .. => span
  | repetition span .. => span
  | bracket span .. => span

def capturing : Pattern → Bool
  | step _ _ capturing => capturing
  | list _ _ _ capturing => capturing
  | repetition _ _ _ _ capturing => capturing
  | bracket _ _ _ capturing => capturing

/-- The node with another capture flag; nodes below it keep theirs. -/
def withCapturing (pattern : Pattern) (capturing : Bool) : Pattern :=
  match pattern with
  | step span id _ => step span id capturing
  | list span op items _ => list span op items capturing
  | repetition span least most child _ => repetition span least most child capturing
  | bracket span negating steps _ => bracket span negating steps capturing

/-! ### Unspanned nodes -/

def ofStep (id : Int64) : Pattern := step .none id true

def ofList (op : ListOp) (items : List Pattern) : Pattern := list .none op items true

def ofRepetition (child : Pattern) (least : Int64) (most : Option Int64) : Pattern :=
  repetition .none least most child true

def ofBracket (negating : Bool) (steps : List Int64) : Pattern :=
  bracket .none negating steps true

/-! ### Whole trees -/

mutual

/-- The pattern with no node that captures. -/
def silent : Pattern → Pattern
  | step span id _ => step span id false
  | list span op items _ => list span op (silentAll items) false
  | repetition span least most child _ => repetition span least most child.silent false
  | bracket span negating steps _ => bracket span negating steps false

def silentAll : List Pattern → List Pattern
  | [] => []
  | item :: rest => item.silent :: silentAll rest

end

mutual

/-- Every step id that is mentioned, in order. -/
def stepIds : Pattern → List Int64
  | step _ id _ => [id]
  | list _ _ items _ => stepIdsOfAll items
  | repetition _ _ _ child _ => child.stepIds
  | bracket _ _ steps _ => steps

def stepIdsOfAll : List Pattern → List Int64
  | [] => []
  | item :: rest => item.stepIds ++ stepIdsOfAll rest

end

mutual

/-- The nodes below a pattern in order, with their levels; its children lie at `level`. -/
def belowFrom (level : Nat) : Pattern → List (Nat × Pattern)
  | step .. => []
  | list _ _ items _ => nodesOfAllFrom level items
  | repetition _ _ _ child _ => (level, child) :: child.belowFrom (level + 1)
  | bracket .. => []

def nodesOfAllFrom (level : Nat) : List Pattern → List (Nat × Pattern)
  | [] => []
  | item :: rest => (level, item) :: item.belowFrom (level + 1) ++ nodesOfAllFrom level rest

end

/-- All nodes of a pattern that lies at `level`. -/
def nodesFrom (level : Nat) (pattern : Pattern) : List (Nat × Pattern) :=
  (level, pattern) :: pattern.belowFrom (level + 1)

end Pattern

end EventQuery
