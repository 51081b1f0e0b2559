/-
Lines of a row: runs of text, emphasized or not.

The lines of the columns are joined into full lines.  A cell is cut or padded to
its column, the blanks at the end of the line are dropped, and runs that meet
with the same emphasis become one.
-/
import Receipt.Text.Column

namespace Receipt

/-- A run of text with one emphasis. -/
structure Segment where
  text : String
  bold : Bool
  deriving DecidableEq, Repr

abbrev Line := List Segment

namespace Line

def width (l : Line) : Nat :=
  l.foldr (fun s n => s.text.length + n) 0

/-- The text of a line, whatever its emphasis. -/
def text (l : Line) : String :=
  String.join (l.map Segment.text)

/-- The line with more text at its end.  Text of the same emphasis joins the last
run, and so does text that leaves the emphasis open; at the start of a line that
means no emphasis. -/
def push (l : Line) (text : String) (bold : Option Bool) : Line :=
  if text.isEmpty then l
  else
    match l.getLast? with
    | some last =>
      if bold.all fun b => b == last.bold then l.dropLast ++ [⟨last.text ++ text, last.bold⟩]
      else l ++ [⟨text, bold.getD false⟩]
    | none => [⟨text, bold.getD false⟩]

/-- The first `budget` characters of a line. -/
def truncate (budget : Nat) : Line → Line
  | [] => []
  | s :: rest =>
    if budget = 0 then []
    else
      let cut := Text.firstChars budget s.text
      ⟨cut, s.bold⟩ :: truncate (budget - cut.length) rest

/-- The line with a cell of a column at its end. -/
def pushCell (l cell : Line) (width : Nat) (align : Alignment) : Line :=
  let cell := cell.truncate width
  let (left, right) := Text.padding cell.width width align
  let l := l.push (Text.spaces left) none
  let l := cell.foldl (fun l s => l.push s.text (some s.bold)) l
  l.push (Text.spaces right) none

/-- A text without the spaces at its end. -/
def trimEndText (s : String) : String :=
  String.ofList (s.toList.reverse.dropWhile (· == ' ')).reverse

/-- A reversed line without the spaces at the end of the line. -/
def trimEndReversed : List Segment → List Segment
  | [] => []
  | s :: rest =>
    let text := trimEndText s.text
    if text.isEmpty then trimEndReversed rest else ⟨text, s.bold⟩ :: rest

def trimEnd (l : Line) : Line :=
  (trimEndReversed l.reverse).reverse

end Line

structure Column where
  width : Nat
  align : Alignment
  lines : List Line
  deriving DecidableEq, Repr

namespace Column

/-- The line with the cell number `i` of a column at its end. -/
def pushOnto (i : Nat) (l : Line) (c : Column) : Line :=
  l.pushCell (c.lines.getD i []) c.width c.align

/-- The full line number `i` of columns side by side. -/
def composeLine (columns : List Column) (i : Nat) : Line :=
  Line.trimEnd (columns.foldl (pushOnto i) [])

def height (columns : List Column) : Nat :=
  columns.foldl (fun h c => max h c.lines.length) 0

/-- The full lines of columns side by side. -/
def compose (columns : List Column) : List Line :=
  (List.range (height columns)).map (composeLine columns)

end Column

end Receipt
