import EventQuery.Json.Value
import EventQuery.Number.Layout

/-!
JSON text in two layouts: compact, and pretty with one member a line and two
spaces a level. Both print members in their order.
-/
namespace EventQuery.Json

/-- Lower-case hexadecimal digits of a code unit below `0x10000`. -/
def hexUnit (n : Nat) : List Char :=
  let digits := Nat.toDigits 16 n
  List.replicate (4 - digits.length) '0' ++ digits

/-- A character inside a string: quotes, backslashes and controls are escaped. -/
def escape (c : Char) : List Char :=
  match c with
  | '"' => ['\\', '"']
  | '\\' => ['\\', '\\']
  | '\x08' => ['\\', 'b']
  | '\x0c' => ['\\', 'f']
  | '\n' => ['\\', 'n']
  | '\r' => ['\\', 'r']
  | '\t' => ['\\', 't']
  | _ => if c.toNat < 0x20 then '\\' :: 'u' :: hexUnit c.toNat else [c]

def quoted (text : String) : String :=
  String.ofList ('"' :: (text.toList.flatMap escape ++ ['"']))

/-- The text of a value without containers. Floating-point numbers are finite. -/
def scalarText : Json → String
  | .null => "null"
  | .boolean value => if value then "true" else "false"
  | .integer value => toString value
  | .decimal value => Number.Layout.write Number.Layout.json value
  | .text value => quoted value
  | .list _ => "[]"
  | .object _ => "\x7b\x7d"

mutual

/-- Compact text: no white space at all. -/
def compact : Json → String
  | .list items => "[" ++ compactItems items ++ "]"
  | .object members => "\x7b" ++ compactMembers members ++ "\x7d"
  | scalar => scalarText scalar

def compactItems : List Json → String
  | [] => ""
  | [item] => compact item
  | item :: rest => compact item ++ "," ++ compactItems rest

def compactMembers : List (String × Json) → String
  | [] => ""
  | [(name, value)] => quoted name ++ ":" ++ compact value
  | (name, value) :: rest => quoted name ++ ":" ++ compact value ++ "," ++ compactMembers rest

end

/-- A line break and the indentation of `level`. -/
def lineBreak (level : Nat) : String := "\n" ++ "".pushn ' ' (2 * level)

mutual

/-- Pretty text of a value whose first line is already indented by `level`. -/
def prettyAt (level : Nat) : Json → String
  | .list [] => "[]"
  | .list items => "[" ++ prettyItems (level + 1) items ++ lineBreak level ++ "]"
  | .object [] => "\x7b\x7d"
  | .object members => "\x7b" ++ prettyMembers (level + 1) members ++ lineBreak level ++ "\x7d"
  | scalar => scalarText scalar

def prettyItems (level : Nat) : List Json → String
  | [] => ""
  | [item] => lineBreak level ++ prettyAt level item
  | item :: rest => lineBreak level ++ prettyAt level item ++ "," ++ prettyItems level rest

def prettyMembers (level : Nat) : List (String × Json) → String
  | [] => ""
  | [(name, value)] => lineBreak level ++ quoted name ++ ": " ++ prettyAt level value
  | (name, value) :: rest =>
    lineBreak level ++ quoted name ++ ": " ++ prettyAt level value ++ ","
      ++ prettyMembers level rest

end

def pretty (value : Json) : String := prettyAt 0 value

end EventQuery.Json
