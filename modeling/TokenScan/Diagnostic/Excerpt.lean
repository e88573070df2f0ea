import TokenScan.Printed
import TokenScan.Source.Span

/-!
Excerpts. An excerpt shows a span within its source: a heading with the location, the lines that
hold the span with its characters highlighted, one line of context on either side, and a row of
carets when the span stays on one line. It is laid out as rows first, and only the rows are
turned into text, so what is shown can be told apart from how it is written.
-/

namespace TokenScan

open Text Styled Printed

namespace Excerpt

/-- The number of cells that a character takes. A tab takes four. -/
def cellWidth (c : Char) : Nat :=
  if c = '\t' then 4 else 1

def cellsWidth (chars : List Char) : Nat :=
  chars.foldl (fun width c => width + cellWidth c) 0

def cellText (c : Char) : List Char :=
  if c = '\t' then List.replicate 4 ' ' else [c]

structure Cell where
  character : Char
  highlighted : Bool
deriving Repr, DecidableEq

inductive Row where
  /-- The path and the location where the span begins. -/
  | heading (location : Location)
  /-- The bar alone. -/
  | gutter
  /-- A line of the source with its number. -/
  | line (number : Nat) (cells : List Cell)
  /-- Carets after an indent, and the help if there is any. -/
  | carets (indent count : Nat) (help : Option String)
  /-- The help alone. -/
  | note (content : String)
deriving Repr, DecidableEq

end Excerpt

/-- The rows of an excerpt, the path they speak of, and the number of cells before the bar. -/
structure Excerpt where
  path : String
  width : Nat
  rows : List Excerpt.Row
deriving Repr, DecidableEq

namespace Excerpt

def digitCount (number : Nat) : Nat :=
  (Nat.toDigits 10 number).length

/-- The line on which a span from one location to another ends. A span that ends just after a
terminator ends on the line that the terminator belongs to. -/
def lastLine (start stop : Location) : Nat :=
  if stop.column = 1 ∧ start.line < stop.line then stop.line - 1 else stop.line

/-- The characters of a line, marked where they lie from one location up to another. -/
def cells (start stop : Location) (number : Nat) (line : List Char) : List Cell :=
  (line.zipIdx 1).map fun (c, column) =>
    let here : Location := ⟨number, column⟩
    ⟨c, !here.isBefore start && here.isBefore stop⟩

/-- The row that shows a line without its terminator, if there is such a line. -/
def lineRow? (source : Source) (start stop : Location) (number : Nat) : Option Row :=
  (source.line? number).map fun line => .line number (cells start stop number (trimLineEnd line))

/-- The number of cells in front of the carets, which is that of what is shown before the span. -/
def caretIndent (source : Source) (start : Location) : Nat :=
  cellsWidth (((source.line? start.line).getD []).take (start.column - 1))

/-- The row of carets under a span that stays on one line. There is at least one caret. -/
def caretRow (source : Source) (span : Span) (start : Location) (help : Option String) : Row :=
  let covered := (trimLineEnd (source.charsIn span)).length
  .carets (caretIndent source start) (if covered = 0 then 1 else covered) help

/-- The rows that show a span from one location to another: a heading, the line before the span,
its own lines, and the line after it. -/
def rowsOf (source : Source) (span : Span) (start stop : Location) (help : Option String) :
    List Row :=
  let last := lastLine start stop
  let numbers := List.range' (start.line - 1) (last + 2 - start.line)
  let lines := numbers.filterMap (lineRow? source start stop)
  let next := (lineRow? source start stop (last + 1)).toList
  if start.line = last then
    [.heading start, .gutter] ++ lines ++ [caretRow source span start help] ++ next ++ [.gutter]
  else
    [.heading start, .gutter] ++ lines ++ next ++ [.gutter] ++ (help.map Row.note).toList

def ofSpan (source : Source) (span : Span) (help : Option String) : Excerpt :=
  let start := source.location span.start
  let stop := source.location span.stop
  { path := source.path
    width := digitCount (lastLine start stop + 1)
    rows := rowsOf source span start stop help }

def bar : Styled :=
  painted .bold (painted .cyan "┃")

def emptyGutter (width : Nat) : Styled :=
  concat [spaces width, " ", bar]

def Cell.styled (cell : Cell) : Styled :=
  let shown : Styled := String.ofList (cellText cell.character)
  if cell.highlighted then painted .underline (painted .bold (painted .red shown)) else shown

def helpText (content : String) : Styled :=
  concat [" ", painted .bold "help", ": ", content]

/-- Prints a row without the end of the line. Only the indent of the carets can be too wide: the
other spaces stand for digits that are missing from a number. -/
def Row.printed (path : String) (width : Nat) : Row → Printed
  | .heading location =>
      write (concat [spaces width, painted .bold (painted .cyan "-->"), " ", path, ":",
        location.text])
  | .gutter => write (emptyGutter width)
  | .line number cells =>
      let digits := toString number
      write (concat ([painted .bold (painted .cyan (spaces (width - digits.length) ++ digits)),
        " ", bar, " "] ++ cells.map Cell.styled))
  | .carets indent count help =>
      sequence [write (concat [emptyGutter width, " "]), pad indent,
        write (concat (painted .bold (painted .red (String.ofList (List.replicate count '^'))) ::
          (help.map helpText).toList))]
  | .note content =>
      write (concat [spaces width, " ", painted .bold (painted .cyan "="), helpText content])

def printed (excerpt : Excerpt) : Printed :=
  sequence (excerpt.rows.map fun row =>
    (row.printed excerpt.path excerpt.width).andThen (write (text "\n")))

end Excerpt

end TokenScan
