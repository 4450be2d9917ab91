import StackLang.Text.Space
import StackLang.Text.Escape
import StackLang.Text.Directive

/-!
# Tables

A table is drawn with lines of `-`, `+` and `|`: a title, a header row, rows, and perhaps a footer
row.  A column is as wide as its widest cell.  A column whose row cells are all numbers is aligned
to the right, header and footer included, and every other one to the left.  The title is wrapped
to the width that the columns give the table.
-/

set_option autoImplicit false

namespace StackLang

/-- A cell of a table. -/
structure Cell where
  text : String
  /-- Whether the cell counts as a number for the alignment of its column. -/
  isNumber : Bool := false
  deriving DecidableEq, Repr

/-- A cell that holds a text. -/
def Cell.str (s : String) : Cell := { text := s }

/-- A cell that holds a number. -/
def Cell.num (n : Int) : Cell := { text := toString n, isNumber := true }

/-- A table. -/
structure Table where
  title : String
  header : List String
  rows : List (List Cell) := []
  footer : Option (List Cell) := none

namespace Table

/-- A text with four blanks for each tab. -/
def expandTabs (cs : List Char) : List Char :=
  cs.flatMap fun c => if c == '\t' then List.replicate 4 ' ' else [c]

/-- A line as it is written from left to right: the characters before the place of writing, in
reverse, and those from there on. -/
structure Line where
  before : List Char := []
  after : List Char := []

/-- Write a character over what is there.  A carriage return goes back to the start of the line. -/
def Line.write (l : Line) (c : Char) : Line :=
  if c == '\r' then { after := l.before.reverse ++ l.after }
  else { before := c :: l.before, after := l.after.tail }

/-- What a line shows after its characters have been written. -/
def overwrite (cs : List Char) : List Char :=
  let l := cs.foldl Line.write {}
  l.before.reverse ++ l.after

/-- The characters of a cell. -/
def cellChars (c : Cell) : List Char := overwrite (expandTabs c.text.toList)

/-- The letters of a heading in upper case. -/
def heading (cs : List Char) : List Char := cs.map Char.toUpper

/-- The rows of a table as they are drawn: the header, the rows and the footer. -/
def drawnRows (t : Table) : List (List (List Char)) :=
  t.header.map (fun s => heading s.toList) ::
    t.rows.map (fun row => row.map cellChars) ++
    (t.footer.map fun row => row.map fun c => heading (cellChars c)).toList

/-- The width of the column `i` of some rows. -/
def columnWidth (rows : List (List (List Char))) (i : Nat) : Nat :=
  rows.foldl (fun w row => max w (Text.shownWidth (row.getD i []))) 0

/-- The number of columns. -/
def columns (t : Table) : Nat := t.header.length

/-- The widths of the columns. -/
def widths (t : Table) : List Nat :=
  let rows := t.drawnRows
  (List.range t.columns).map (columnWidth rows)

/-- Whether the cells of column `i` are all numbers. -/
def isNumeric (t : Table) (i : Nat) : Bool :=
  t.rows.all fun row => ((row[i]?).map Cell.isNumber).getD true

/-- Blanks. -/
def blanks (n : Nat) : List Char := List.replicate n ' '

/-- Pad a text to a width, on the left or on the right, in place of the blanks it has there. -/
def pad (toRight : Bool) (w : Nat) (cs : List Char) : List Char :=
  if toRight then
    let cs := cs.dropWhile (· == ' ')
    blanks (w - Text.shownWidth cs) ++ cs
  else
    let cs := (cs.reverse.dropWhile (· == ' ')).reverse
    cs ++ blanks (w - Text.shownWidth cs)

/-- A line that separates rows. -/
def ruler (widths : List Nat) : List Char :=
  '+' :: widths.flatMap fun w => List.replicate (w + 2) '-' ++ ['+']

/-- A row, cell by cell. -/
def drawRow (cells : List (Bool × Nat × List Char)) : List Char :=
  '|' :: cells.flatMap fun (toRight, w, cs) => ' ' :: pad toRight w cs ++ [' ', '|']

/-! ## Wrapping the title -/

/-- Lines being filled: what has been written, in reverse, the width of the last line, and the
escape sequence that each further line has to start with. -/
structure Wrap where
  written : List Char := []
  width : Nat := 0
  mark : List Char := []

/-- Write some characters. -/
def Wrap.write (w : Wrap) (cs : List Char) : Wrap := { w with written := cs.reverse ++ w.written }

/-- Start a new line.  An escape sequence is ended on the old one and starts the new one. -/
def Wrap.newline (w : Wrap) : Wrap :=
  let reset := if w.mark.isEmpty then [] else Text.escapeReset
  { w.write (reset ++ '\n' :: w.mark) with width := 0 }

/-- Put a character, on a new line if the current one is full.  The characters of an escape
sequence, which goes up to an `m`, take no room. -/
def Wrap.put (limit : Nat) (state : Wrap × Bool) (c : Char) : Wrap × Bool :=
  let (w, inEscape) := state
  let w := if c == Text.escapeChar then { w with mark := [] } else w
  let inEscape := inEscape || c == Text.escapeChar
  let w := if inEscape then { w with mark := w.mark ++ [c] } else w
  let w := if w.width = limit && !inEscape then w.newline else w
  let w := { w.write [c] with width := w.width + if inEscape then 0 else Text.charWidth c }
  if inEscape && c == 'm' then
    ({ w with mark := if w.mark == Text.escapeReset then [] else w.mark }, false)
  else (w, inEscape)

/-- Put a word: whole if it fits, else character by character. -/
def Wrap.word (limit : Nat) (w : Wrap) (word : List Char) (isLast : Bool) : Wrap :=
  let w := if 0 < w.width then { w.write [' '] with width := w.width + 1 } else w
  let size := Text.shownWidth word
  let w :=
    if w.width + size ≤ limit then { w.write word with width := w.width + size }
    else { (word.foldl (Wrap.put limit) (w, false)).1 with mark := w.mark }
  if w.width = limit && !isLast then w.newline else w

/-- Put words in turn.  The codes that are in force after a word are turned on in each further
line. -/
def Wrap.words (limit : Nat) (w : Wrap) (r : Text.EscapeReader) : List (List Char) → Wrap
  | [] => w
  | word :: rest =>
    let r := r.consumeText word
    let w := if r.opening.isEmpty then w else { w with mark := r.opening }
    Wrap.words limit (w.word limit word rest.isEmpty) r rest

/-- A line of a title, wrapped.  What an escape sequence turned on is turned off at the end. -/
def wrapLine (limit : Nat) (cs : List Char) : List Char :=
  let w := Wrap.words limit {} {} (Text.fieldsFrom [] cs)
  let isReset := Text.escapeReset.reverse.isPrefixOf w.written
  let w := if w.mark.isEmpty || isReset then w else w.write Text.escapeReset
  w.written.reverse

/-- The pieces between line feeds. -/
def splitLines (cs : List Char) : List (List Char) :=
  match cs with
  | [] => [[]]
  | c :: rest =>
    if c == '\n' then [] :: splitLines rest
    else
      match splitLines rest with
      | [] => [[c]]
      | line :: more => (c :: line) :: more

/-- The lines of a title inside a table with room for `limit` columns. -/
def titleLines (limit : Nat) (title : String) : List (List Char) :=
  let cs := expandTabs (Text.Directive.expand title).toList
  let lines := splitLines cs
  let lines :=
    if Text.shownWidth cs ≤ limit then lines
    else lines.flatMap fun line => splitLines (wrapLine limit line)
  lines.map Text.trim

/-- The lines of a table. -/
def drawLines (t : Table) : List (List Char) :=
  let widths := t.widths
  let total := widths.foldl (fun n w => n + w + 3) 1
  let inner := total - 4
  let draw (row : List (List Char)) : List Char :=
    drawRow ((List.range t.columns).map fun i =>
      (t.isNumeric i, widths.getD i 0, row.getD i []))
  let rule := ruler widths
  let top := '+' :: List.replicate (total - 2) '-' ++ ['+']
  let title := (titleLines inner t.title).map fun line =>
    '|' :: ' ' :: pad false inner line ++ [' ', '|']
  let header := draw (t.header.map fun s => heading s.toList)
  let rows := t.rows.map fun row => draw (row.map cellChars)
  let footer := match t.footer with
    | none => []
    | some row => [rule, draw (row.map fun c => heading (cellChars c))]
  [top] ++ title ++ [rule, header, rule] ++ rows ++ footer ++ [rule]

/-- The text of a table, without a line end after its last line. -/
def render (t : Table) : String :=
  String.ofList (List.intercalate ['\n'] t.drawLines)

end Table

end StackLang
