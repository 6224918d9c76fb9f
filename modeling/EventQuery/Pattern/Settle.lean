import EventQuery.Analysis.Stopped
import EventQuery.Pattern.Basic

/-!
Checks of patterns. Settling decides from the leaves up which nodes capture: a node
captures if something below it does. Groups that were written as not capturing must
not contain anything that captures, alternatives capture all or none, and a capturing
list starts and stops with items that capture.
-/
namespace EventQuery.Pattern

def structureError (span : Span) (detail : String) : Diagnostic :=
  .of .patternStructureError span detail

def checkKnown (known : List Int64) (span : Span) (id : Int64) : Except Diagnostic Unit :=
  if known.contains id then .ok ()
  else
    let defined := "defined steps: " ++ ", ".intercalate (known.map toString)
    .error ((structureError span s!"step {id} is not defined").withHint defined)

def checkBracket (known : List Int64) (span : Span) (steps : List Int64) :
    Except Diagnostic Unit := do
  if steps.isEmpty then throw (structureError span "bracket set lists no steps")
  steps.forM (checkKnown known span)

def checkBounds (span : Span) (least : Int64) (most : Option Int64) : Except Diagnostic Unit := do
  if least < 0 then throw (structureError span s!"repeat minimum {least} is negative")
  if let some most := most then
    if most < least then
      throw (structureError span s!"repeat maximum {most} is below minimum {least}")

/-- Whether settled items may stand in a list that was written with this flag. -/
def checkItems (span : Span) (op : ListOp) (items : List Pattern) (capturing : Bool) :
    Except Diagnostic Unit := do
  let anyCaptures := items.any Pattern.capturing
  if !capturing && anyCaptures then
    throw (structureError span "non-capturing group contains a capturing pattern")
  if op = .alternatives && anyCaptures && !items.all Pattern.capturing then
    let mixed := structureError span "alternatives mix capturing and non-capturing patterns"
    throw (mixed.withHint "mark every alternative `(?: ...)` or none")

/-- The first and the last item of a list that captures have to capture. -/
def checkEdges (items : List Pattern) (capturing : Bool) : Except Diagnostic Unit := do
  if capturing then
    let edges := items.head?.toList ++ items.getLast?.toList
    if let some edge := edges.find? fun item => !item.capturing then
      throw (structureError edge.span
        "a capturing sequence cannot start or end with a non-capturing pattern")

open Stopped (check within)

mutual

/-- The pattern with its capture flags settled. -/
def settle (known : List Int64) : Pattern → Except (Stopped Pattern) Pattern
  | step span id capturing => do
    check (step span id capturing) (checkKnown known span id)
    return step span id capturing
  | bracket span negating steps capturing => do
    check (bracket span negating steps capturing) (checkBracket known span steps)
    return bracket span negating steps capturing
  | repetition span least most child capturing => do
    check (repetition span least most child capturing) (checkBounds span least most)
    let child ← within (settle known child) fun child =>
      repetition span least most child capturing
    if !capturing && child.capturing then
      throw ⟨structureError span "non-capturing repeat around a capturing pattern",
        repetition span least most child capturing⟩
    return repetition span least most child child.capturing
  | list span op items capturing => do
    if items.isEmpty then
      throw ⟨structureError span "empty pattern list", list span op items capturing⟩
    let items ← within (settleAll known items) fun items => list span op items capturing
    check (list span op items capturing) (checkItems span op items capturing)
    let settled := list span op items (items.any Pattern.capturing)
    check settled (checkEdges items (items.any Pattern.capturing))
    return settled

def settleAll (known : List Int64) : List Pattern → Except (Stopped (List Pattern)) (List Pattern)
  | [] => return []
  | item :: rest => do
    let item ← within (settle known item) fun item => item :: rest
    let rest ← within (settleAll known rest) fun rest => item :: rest
    return item :: rest

end

/-- A settled pattern over the known steps, which captures as a whole. -/
def validate (known : List Int64) (pattern : Pattern) : Except (Stopped Pattern) Pattern := do
  let settled ← settle known pattern
  if settled.capturing then return settled
  else
    let silent := structureError settled.span "the top level of a match must capture"
    throw ⟨silent.withHint "drop the outer `(?: ...)`", settled⟩

end EventQuery.Pattern
