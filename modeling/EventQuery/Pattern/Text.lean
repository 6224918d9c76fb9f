import EventQuery.Pattern.Basic

/-!
The text of patterns. Lists inside other nodes stand in parentheses; `(?:` opens where
capture stops, and covers everything below.
-/
namespace EventQuery.Pattern

def quantifierText (least : Int64) (most : Option Int64) : String :=
  match most with
  | none =>
    if least = 0 then "*" else if least = 1 then "+" else s!"\x7b{least},*\x7d"
  | some most =>
    if least = 0 ∧ most = 1 then "?"
    else if least = most then s!"\x7b{least}\x7d"
    else s!"\x7b{least},{most}\x7d"

/-- A text in the parentheses of a group that does not capture, if one opens. -/
def grouped (opens : Bool) (text : String) : String := if opens then s!"(?:{text})" else text

def bracketText (negating : Bool) (steps : List Int64) : String :=
  (if negating then "^" else "") ++ "[" ++ " ".intercalate (steps.map toString) ++ "]"

mutual

/-- The text of a node. `capture` says whether the text around it captures, `inner`
whether it stands inside another node. -/
def textWithin (capture inner : Bool) : Pattern → String
  | step _ id capturing => grouped (capture && !capturing) (toString id)
  | list _ op items capturing =>
    let opens := capture && !capturing
    let text := op.separator.intercalate (textsWithin capturing items)
    grouped opens (if inner && !opens then s!"({text})" else text)
  | repetition _ least most child capturing =>
    let opens := capture && !capturing
    let text := child.textWithin (capturing && !opens) (!opens)
    grouped opens text ++ quantifierText least most
  | bracket _ negating steps capturing =>
    grouped (capture && !capturing) (bracketText negating steps)

/-- The texts of the items of a list that captures if `capture` holds. -/
def textsWithin (capture : Bool) : List Pattern → List String
  | [] => []
  | item :: rest => item.textWithin capture true :: textsWithin capture rest

end

def text (pattern : Pattern) : String := pattern.textWithin true false

end EventQuery.Pattern
