import EventQuery.Diagnostic.Basic
import EventQuery.Diagnostic.Canvas

/-!
The report of a diagnostic over its source: the message, the lines it concerns with
marks under the ranges, and the hints. Labels stand behind their marks where there
is room, and hang below them otherwise; a range over several lines is a bracket at
the left of its lines. Lines between two marked ones are shown if there is only one.
-/
namespace EventQuery.Diagnostic

/-! ### Places in a source -/

/-- A line of the source with its byte offset. -/
structure Line where
  offset : Nat
  chars : List Char
  deriving Repr

/-- The lines from byte offset `offset` on; `line` holds the current one. -/
def linesFrom (offset : Nat) (line : Line) : List Char → List Line
  | [] => [{ line with chars := line.chars.reverse }]
  | c :: rest =>
    let next := offset + c.utf8Size
    if c = '\n' then
      { line with chars := line.chars.reverse } :: linesFrom next ⟨next, []⟩ rest
    else linesFrom next { line with chars := c :: line.chars } rest

def sourceLines (source : String) : List Line := linesFrom 0 ⟨0, []⟩ source.toList

/-- A tab takes four columns, any other character one. -/
def width (c : Char) : Nat := if c = '\t' then 4 else 1

def shownChars (c : Char) : List Char := if c = '\t' then List.replicate 4 ' ' else [c]

/-- The column after as many bytes of a line. -/
def columnAfter : Nat → List Char → Nat
  | _, [] => 0
  | bytes, c :: rest =>
    if bytes = 0 then 0 else width c + columnAfter (bytes - c.utf8Size) rest

/-- A position as line index, counted from zero, and column. -/
structure Position where
  line : Nat
  column : Nat
  deriving DecidableEq, Repr

def positionOf (lines : List Line) (offset : Nat) : Position :=
  let index := (lines.takeWhile fun line => line.offset ≤ offset).length - 1
  match lines[index]? with
  | some line => ⟨index, columnAfter (offset - line.offset) line.chars⟩
  | none => ⟨index, 0⟩

/-! ### Marks -/

/-- What a mark is on its line: a range of its own, or a part of a bracket. -/
inductive Part where
  | whole | opening | inner | closing
  deriving DecidableEq, Repr

structure Mark where
  start : Nat
  stop : Nat
  isPrimary : Bool
  label : String
  part : Part
  deriving DecidableEq, Repr

namespace Mark

def hasLabel (mark : Mark) : Bool := !mark.label.isEmpty

def takesSpace (mark : Mark) : Bool := mark.part == .opening || mark.part == .closing

def style (mark : Mark) : Style := if mark.isPrimary then .primary else .secondary

def char (mark : Mark) : Char := if mark.isPrimary then '^' else '-'

/-- Whether two marks share a column when `room` more columns follow the first. -/
def overlaps (a b : Mark) (room : Nat) : Bool :=
  (b.start ≤ a.start && a.start < b.stop) || (a.start ≤ b.start && b.start < a.stop + room)

end Mark

/-- The range an annotation is drawn for; an empty range takes one more byte. -/
def drawnSpan (span : Span) (limit : Nat) : Span :=
  if span.start = span.stop then ⟨span.start, min (span.start + 1) limit⟩ else span

/-- Lines that end the shown part of a long bracket only if nothing else does. -/
def isBare (line : List Char) : Bool :=
  let text := (line.dropWhile Char.isWhitespace).reverse.dropWhile Char.isWhitespace |>.reverse
  let text := String.ofList text
  ["", "\x7b", "\x7d", "(", ")", "[", "]"].contains text
    || (text.startsWith "//" && !(text.startsWith "///" || text.startsWith "//!"))

/-- The marks of one range, with the index of their line. -/
def marksOf (lines : List Line) (span : Span) (isPrimary : Bool) (label : String) :
    List (Nat × Mark) :=
  let low := positionOf lines span.start
  let high := positionOf lines span.stop
  if low.line = high.line then
    let stop := if low.column = high.column then high.column + 1 else high.column
    [(low.line, ⟨low.column, stop, isPrimary, label, .whole⟩)]
  else
    let isBareLine (index : Nat) : Bool := (lines[index]?).all fun line => isBare line.chars
    let inner : Mark := ⟨0, 0, isPrimary, "", .inner⟩
    let middle := min (low.line + 4) high.line
    let candidates := (List.range (middle - low.line)).map fun i => middle - 1 - i
    let last := (candidates.find? fun index => !isBareLine index).map (· + 1) |>.getD low.line
    let shown := (List.range (last - (low.line + 1))).map fun i => (low.line + 1 + i, inner)
    let beforeEnd := high.line - 1
    let tail :=
      if middle < beforeEnd && !isBareLine beforeEnd then [(beforeEnd, inner)] else []
    (low.line, ⟨low.column, low.column + 1, isPrimary, "", .opening⟩) :: shown ++ tail
      ++ [(high.line, ⟨high.column - 1, high.column, isPrimary, label, .closing⟩)]

/-! ### Drawing -/

/-- Whether the label of `mark` has to move one row down because of the marks to the
left of it. -/
def collides (mark : Mark) (others : List Mark) : Bool :=
  others.any fun other =>
    mark.overlaps other 0 && mark.hasLabel
      && !(other.start == mark.start && other.stop == mark.stop && !other.hasLabel)

/-- Whether the marks after `mark` need rows of their own. -/
def crowds (row : Nat) (mark : Mark) (others : List Mark) : Bool :=
  others.any fun other =>
    let room := if other.hasLabel then other.label.length + 2 else 0
    (other.overlaps mark room && mark.hasLabel && other.hasLabel)
      || (mark.takesSpace && other.hasLabel) || (mark.hasLabel && other.takesSpace)
      || (mark.takesSpace && other.takesSpace)
      || (other.overlaps mark room && other.stop ≤ mark.stop && other.hasLabel && row == 0)

/-- The row of the label of each mark, the rightmost mark first. -/
def labelRows (row : Nat) : List Mark → List (Nat × Mark)
  | [] => []
  | mark :: others =>
    let row := if row = 0 ∧ collides mark others then row + 1 else row
    (row, mark) :: labelRows (if crowds row mark others then row + 1 else row) others

structure Page where
  canvas : Canvas
  /-- The column where the code starts, and the one of the bracket before it. -/
  code : Nat
  bracket : Nat
  /-- The style of an open bracket. -/
  openBracket : Option Style

namespace Page

def height (page : Page) : Nat := page.canvas.length

def onCanvas (page : Page) (change : Canvas → Canvas) : Page :=
  { page with canvas := change page.canvas }

/-- The number column and the bar of the row `index`. -/
def gutter (page : Page) (index : Nat) (number : String) : Page :=
  page.onCanvas fun canvas =>
    let canvas := if number.isEmpty then canvas else canvas.write index 0 .gutter number
    canvas.put index (page.bracket - 2) .gutter '|'

def sourceLine (page : Page) (index : Nat) (number : Nat) (line : Line) : Page :=
  (page.gutter index (toString number)).onCanvas fun canvas =>
    canvas.write index page.code .plain (String.ofList (line.chars.flatMap shownChars))

/-- The marks of one line, drawn from row `top`, where the line itself stands. -/
def drawMarks (page : Page) (top : Nat) (line : Line) (marks : List Mark) : Page :=
  let marks := marks.mergeSort fun a b => b.start ≤ a.start
  if marks.all fun mark => mark.part == .inner then page
  else if marks.all fun mark =>
      mark.part == .inner
        || (mark.part == .opening && (line.chars.take mark.start).all Char.isWhitespace) then
    marks.foldl (fun page mark =>
      if mark.part = .opening then
        { page.onCanvas fun canvas => canvas.put top page.bracket mark.style '/' with
          openBracket := some mark.style }
      else page) page
  else
    let drawn := labelRows 0 (marks.filter fun mark => mark.part != .inner)
    let deepest := (drawn.map Prod.fst).foldl max 0
    let rows := if deepest = 0 then 1 else deepest + 2
    let page := (List.range rows).foldl (fun page i => page.gutter (top + 1 + i) "") page
    let page := drawn.foldl (fun page (row, mark) =>
      if mark.takesSpace then
        page.onCanvas fun canvas =>
          canvas.drawAcross (top + row + 1) (page.bracket + 1) (page.code + mark.start)
            mark.style '_'
      else page) page
    let page := drawn.foldl (fun page (row, mark) =>
      let page :=
        if 0 < row && (mark.hasLabel || mark.takesSpace) then
          page.onCanvas fun canvas =>
            canvas.drawDown (top + 1) (top + row + 2) (page.code + mark.start) mark.style '|'
        else page
      match mark.part with
      | .opening =>
        { page.onCanvas fun canvas =>
            canvas.drawDown (top + row + 2) (top + rows + 1) page.bracket mark.style '|' with
          openBracket := some mark.style }
      | .closing =>
        { page.onCanvas fun canvas =>
            canvas.drawDown top (top + row + 2) page.bracket mark.style '|' with
          openBracket := none }
      | _ => page) page
    let page := drawn.foldl (fun page (row, mark) =>
      page.onCanvas fun canvas =>
        if !mark.hasLabel then canvas
        else if row = 0 then
          canvas.write (top + 1) (page.code + mark.stop + 1) mark.style mark.label
        else canvas.write (top + row + 2) (page.code + mark.start) mark.style mark.label) page
    let bySize := (drawn.map Prod.snd).mergeSort fun a b =>
      b.stop - b.start < a.stop - a.start
        || (b.stop - b.start == a.stop - a.start && (!a.isPrimary || b.isPrimary))
    bySize.foldl (fun page mark =>
      page.onCanvas fun canvas =>
        canvas.drawAcross (top + 1) (page.code + mark.start) (page.code + mark.stop) mark.style
          mark.char) page

/-- One marked line and, if a marked line follows at `next`, what stands between. -/
def drawLine (page : Page) (lines : List Line) (index : Nat) (marks : List Mark)
    (next : Option Nat) : Page :=
  match lines[index]? with
  | none => page
  | some line =>
    let top := page.height
    let before := page.openBracket
    let page := (page.sourceLine top (index + 1) line).drawMarks top line marks
    let bracketRows (page : Page) (style : Option Style) (first : Nat) : Page :=
      match style with
      | some style =>
        page.onCanvas fun canvas =>
          canvas.drawDown first page.height page.bracket style '|'
      | none => page
    let page := if page.openBracket.isSome then bracketRows page before top else page
    match next with
    | none => page
    | some next =>
      let row := page.height
      if index + 2 < next then
        bracketRows (page.onCanvas fun canvas => canvas.write row 0 .gutter "...")
          page.openBracket row
      else if next = index + 2 then
        match lines[index + 1]? with
        | some between => bracketRows (page.sourceLine row (index + 2) between) page.openBracket row
        | none => page
      else page

/-- All marked lines in order. -/
def drawLines (page : Page) (lines : List Line) (marks : List (Nat × Mark)) :
    List Nat → Page
  | [] => page
  | index :: rest =>
    let own := (marks.filter fun (line, _) => line == index).map Prod.snd
    drawLines (page.drawLine lines index own rest.head?) lines marks rest

end Page

/-- A row with the bar alone, or with a hint behind an equals sign. -/
def hintRows (bar : Nat) (hints : List String) : Canvas :=
  if hints.isEmpty then []
  else
    Row.put [] bar ⟨'|', .gutter⟩ :: hints.map fun hint =>
      let row := Row.write [] bar .gutter "= ".toList
      let row := row.write (bar + 2) .bold "help".toList
      row.write (bar + 6) .plain (": " ++ hint).toList

/-- The report over a source that holds the range of the diagnostic. -/
def reportOver (diagnostic : Diagnostic) (source : String) (path : Option String)
    (coloured : Bool) : String :=
  let lines := sourceLines source
  let limit := source.utf8ByteSize
  let span := drawnSpan diagnostic.span limit
  let marks := marksOf lines span true diagnostic.message
    ++ diagnostic.related.flatMap fun (remark, span) =>
      marksOf lines (drawnSpan span limit) false remark
  let indices := (marks.map Prod.fst).mergeSort.eraseDups
  let numberWidth := (toString ((indices.getLastD 0) + 1)).length
  let bar := numberWidth + 1
  let hasBracket := marks.any fun (_, mark) => mark.part != .whole
  let bracket := bar + 2
  let title := (Row.write [] 0 .primary "error".toList).write 5 .bold
    (": " ++ diagnostic.message).toList
  let place := positionOf lines span.start
  let arrow := path.toList.map fun path =>
    (Row.write [] numberWidth .gutter "--> ".toList).write (numberWidth + 4) .plain
      (s!"{path}:{place.line + 1}:{place.column + 1}").toList
  let head : Canvas := title :: arrow ++ [Row.put [] bar ⟨'|', .gutter⟩]
  let page : Page := ⟨head, if hasBracket then bracket + 2 else bracket, bracket, none⟩
  let body := (page.drawLines lines marks indices).canvas
  (body ++ hintRows bar diagnostic.hints).text coloured

/-- The report of a diagnostic; without a source that holds it, its one-line form. -/
def report (diagnostic : Diagnostic) (source : Option String) (path : Option String)
    (coloured : Bool) : String :=
  match source with
  | some source =>
    if diagnostic.span.stop ≤ source.utf8ByteSize then reportOver diagnostic source path coloured
    else diagnostic.display
  | none => diagnostic.display

end EventQuery.Diagnostic
