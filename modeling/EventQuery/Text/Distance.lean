/-!
Edit distance between names, and the closest of several candidates. The distance
counts single-character insertions, deletions and substitutions; it is computed
row by row, one row for each character of the first word.
-/
namespace EventQuery.Text.Distance

/-- The rest of a row: `left` is the entry just written, `above` holds the row
before from the entry diagonally up-left on. -/
def rowFrom (c : Char) : List Char → Nat → List Nat → List Nat
  | d :: word, left, diagonal :: up :: above =>
    let entry := min (min (up + 1) (left + 1)) (diagonal + if c = d then 0 else 1)
    entry :: rowFrom c word entry (up :: above)
  | _, _, _ => []

/-- The row for one more character `c` of the first word. -/
def nextRow (c : Char) (word : List Char) (above : List Nat) : List Nat :=
  let first := above.headD 0 + 1
  first :: rowFrom c word first above

/-- Distances of the empty word to the beginnings of `word`. -/
def firstRow (word : List Char) : List Nat := List.range (word.length + 1)

def distance (a b : List Char) : Nat :=
  (a.foldl (fun row c => nextRow c b row) (firstRow b)).getLastD 0

def editDistance (a b : String) : Nat := distance a.toList b.toList

/-- The candidate at the least distance, the earliest of several. -/
def closest (name : String) : List String → Option (String × Nat)
  | [] => none
  | candidate :: rest =>
    let here := editDistance name candidate
    match closest name rest with
    | some (other, far) => if here ≤ far then some (candidate, here) else some (other, far)
    | none => some (candidate, here)

/-- The closest candidate, if it lies within `bound` edits. -/
def similar (name : String) (candidates : List String) (bound : Nat) : Option String :=
  closest name (candidates.filter fun candidate => editDistance name candidate ≤ bound)
    |>.map Prod.fst

/-- Edits tolerated for a suggestion: a third of the name, at least one and at most three. -/
def tolerance (name : String) : Nat := min 3 (max 1 (name.length / 3))

/-- The hint for an unknown `name`, if some candidate is close enough to be meant. -/
def suggestion (name : String) (candidates : List String) : Option String :=
  (similar name candidates (tolerance name)).map fun candidate => s!"did you mean `{candidate}`?"

end EventQuery.Text.Distance
