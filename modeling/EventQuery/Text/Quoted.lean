/-!
Quoted literals. A text is written between single quotes, and a quote inside it
is written twice. Reading accepts single or double quotes around the text; a text
that is not quoted stands for itself.
-/
namespace EventQuery.Text.Quoted

/-- Every single quote twice, all else once. -/
def double : List Char → List Char
  | [] => []
  | c :: rest => if c = '\'' then '\'' :: '\'' :: double rest else c :: double rest

/-- Each pair of neighbouring marks becomes one, from the left and without overlap. -/
def collapse (mark : Char) : List Char → List Char
  | [] => []
  | [c] => [c]
  | c :: d :: rest =>
    if c = mark ∧ d = mark then mark :: collapse mark rest else c :: collapse mark (d :: rest)

def encode (text : List Char) : List Char := '\'' :: (double text ++ ['\''])

/-- The text inside a pair of equal quotes; anything else is returned as it stands. -/
def decode : List Char → List Char
  | first :: second :: rest =>
    if (first = '\'' ∨ first = '"') ∧ (second :: rest).getLast? = some first then
      collapse first (second :: rest).dropLast
    else first :: second :: rest
  | short => short

def quote (text : String) : String := String.ofList (encode text.toList)

def unquote (raw : String) : String := String.ofList (decode raw.toList)

theorem toList_quote (text : String) : (quote text).toList = encode text.toList := by
  simp [quote]

theorem toList_unquote (raw : String) : (unquote raw).toList = decode raw.toList := by
  simp [unquote]

end EventQuery.Text.Quoted
