import EventQuery.Expression.Outline
import EventQuery.Pattern.Basic

/-!
The outline of a pattern: one line a node, each level two spaces deeper.
-/
namespace EventQuery.Pattern

def title : Pattern → String
  | step _ id _ => s!"Step {id}"
  | list _ op _ _ => s!"List {op.title}"
  | repetition _ least none _ _ => s!"Repeat {least}.."
  | repetition _ least (some most) _ _ => s!"Repeat {least}..={most}"
  | bracket _ negating steps _ =>
    "BracketSet " ++ (if negating then "^" else "") ++ "[" ++ " ".intercalate (steps.map toString)
      ++ "]"

def outlineLine (level : Nat) (node : Pattern) : String :=
  indentation level ++ node.title ++ (if node.capturing then "" else " non-capturing") ++ "\n"

def outline (level : Nat) (pattern : Pattern) : String :=
  String.join ((pattern.nodesFrom level).map fun (level, node) => outlineLine level node)

end EventQuery.Pattern
