/-!
A canvas of characters in rows and columns, each with a style. Writing beyond the
end of a row fills the gap with blanks. The canvas is shown plain, or with the
escape sequences of a colour terminal around each run of one style.
-/
namespace EventQuery.Diagnostic

inductive Style where
  | plain | bold | gutter | primary | secondary
  deriving DecidableEq, Repr

structure Cell where
  char : Char
  style : Style
  deriving DecidableEq, Repr

abbrev Row := List Cell

abbrev Canvas := List Row

def blank : Cell := ⟨' ', .plain⟩

/-- A row with the cell at `column` replaced. -/
def Row.put (row : Row) (column : Nat) (cell : Cell) : Row :=
  let padded := row ++ List.replicate (column + 1 - row.length) blank
  padded.set column cell

/-- A row with a text written from `column` on. -/
def Row.write (row : Row) (column : Nat) (style : Style) (text : List Char) : Row :=
  match text with
  | [] => row
  | c :: rest => Row.write (row.put column ⟨c, style⟩) (column + 1) style rest

namespace Canvas

/-- The canvas with row `index` changed; rows that are missing are empty. -/
def modifyRow (canvas : Canvas) (index : Nat) (change : Row → Row) : Canvas :=
  let padded := canvas ++ List.replicate (index + 1 - canvas.length) []
  padded.modify index change

def put (canvas : Canvas) (index column : Nat) (style : Style) (c : Char) : Canvas :=
  canvas.modifyRow index fun row => row.put column ⟨c, style⟩

def write (canvas : Canvas) (index column : Nat) (style : Style) (text : String) : Canvas :=
  canvas.modifyRow index fun row => row.write column style text.toList

/-- Column `column` of the rows from `first` up to `last`, without `last`. -/
def drawDown (canvas : Canvas) (first last column : Nat) (style : Style) (c : Char) : Canvas :=
  (List.range (last - first)).foldl (fun canvas i => canvas.put (first + i) column style c) canvas

/-- The columns from `first` up to `last`, without `last`, of row `index`. -/
def drawAcross (canvas : Canvas) (index first last : Nat) (style : Style) (c : Char) : Canvas :=
  (List.range (last - first)).foldl (fun canvas i => canvas.put index (first + i) style c) canvas

end Canvas

/-- The escape sequences that switch a style on. -/
def Style.opening : Style → String
  | plain => ""
  | bold => "\x1b[1m"
  | gutter => "\x1b[1m\x1b[94m"
  | primary => "\x1b[1m\x1b[91m"
  | secondary => "\x1b[1m\x1b[94m"

/-- A run of text in one style. -/
def Style.paint (style : Style) (text : String) : String :=
  if style = .plain then text else style.opening ++ text ++ "\x1b[0m"

def Row.plainText (row : Row) : String := String.ofList (row.map Cell.char)

def Row.colouredText (row : Row) : String :=
  String.join <| (row.splitBy fun a b => a.style == b.style).map fun run =>
    match run with
    | [] => ""
    | cell :: _ => cell.style.paint (Row.plainText run)

def Canvas.text (coloured : Bool) (canvas : Canvas) : String :=
  "\n".intercalate (canvas.map fun row => if coloured then row.colouredText else row.plainText)

end EventQuery.Diagnostic
