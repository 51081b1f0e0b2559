/-
Rows: containers whose children stand side by side in columns of text.

Every child is rendered to lines at the width of its column, and the columns are
then composed to full lines.  Pictures and unknown nodes take no column.  A row
inside a column is laid out in the width of that column, and so on down.
-/
import Receipt.Document.Node
import Receipt.Row.Line
import Receipt.Style.Resolve
import Receipt.Text.Wrap

namespace Receipt

/-! ### Widths -/

/-- The widths that columns ask for, as far as there is room, and the room that is
left.  Earlier columns go first. -/
def grantWidths (available : Nat) : List (Option Nat) → List (Option Nat) × Nat
  | [] => ([], available)
  | none :: rest =>
    let (widths, left) := grantWidths available rest
    (none :: widths, left)
  | some w :: rest =>
    let w := min w available
    let (widths, left) := grantWidths (available - w) rest
    (some w :: widths, left)

/-- The widths of columns that ask for none: `share` each, and for the last of
them `extra` more. -/
def shareWidths (share extra : Nat) : Nat → List (Option Nat) → List Nat
  | _, [] => []
  | autos, some w :: rest => w :: shareWidths share extra autos rest
  | autos, none :: rest =>
    (if autos = 1 then share + extra else share) :: shareWidths share extra (autos - 1) rest

def autoCount (widths : List (Option Nat)) : Nat :=
  widths.countP Option.isNone

/-- How columns share the width of a row. -/
def columnWidths (explicit : List (Option Nat)) (available : Nat) : List Nat :=
  let (granted, left) := grantWidths available explicit
  let autos := autoCount granted
  shareWidths (left / autos) (left % autos) autos granted

/-- The alignment of the column number `index` of `count`: its own, or the one
that goes with how the row shares its width. -/
def cellAlignment (own : Option Alignment) (justify : Option Justify) (index count : Nat) :
    Alignment :=
  match own with
  | some align => align
  | none =>
    match justify with
    | some .spaceBetween =>
      if index = 0 then .left else if index + 1 = count then .right else .center
    | some .center => .center
    | some .flexEnd => .right
    | _ => .left

def Node.takesColumn (n : Node) : Bool :=
  match n.kind with
  | .image | .other _ => false
  | _ => true

/-- The children of a row that take a column. -/
def Node.columnChildren (row : Node) : List Node :=
  row.children.filter Node.takesColumn

/-! ### Blocks -/

/-- A border across a block. -/
def borderLines (style : Style) (key : String) (bold : Bool) (width : Nat) : List Line :=
  match style.border? key with
  | some rule => [[⟨rule.line width, bold⟩]]
  | none => []

/-- The content of a block between its borders and distances. -/
def frameLines (style : Style) (bold : Bool) (width : Nat) (content : List Line) : List Line :=
  List.replicate style.spacing.top [] ++ borderLines style "borderTop" bold width ++ content ++
    borderLines style "borderBottom" bold width ++ List.replicate style.spacing.bottom []

def textLines (text : String) (bold : Bool) (width : Nat) : List Line :=
  if text.isEmpty then [] else (Text.wrap text width).map fun line => [⟨line, bold⟩]

/-- What the columns of a row are laid out with: the widths of the columns from
the next one on, and the place of the next one among all. -/
structure ColumnPlan where
  widths : List Nat
  index : Nat
  count : Nat
  justify : Option Justify

/-- The plan for the columns of a row. -/
def ColumnPlan.ofRow (style : Style) (children : List Node) (available : Nat) : ColumnPlan :=
  let children := children.filter Node.takesColumn
  { widths := columnWidths (children.map fun c => c.style.width? available) available
    index := 0
    count := children.length
    justify := style.view.justify }

def ColumnPlan.advance (p : ColumnPlan) : ColumnPlan :=
  { p with widths := p.widths.tail, index := p.index + 1 }

mutual

/-- The lines of a node in a column. -/
def renderBlock (bold : Bool) (width : Nat) : Node → List Line
  | ⟨kind, props, style, children⟩ =>
    let bold := style.text.bold.getD bold
    match kind with
    | .image | .other _ => []
    | .text | .textNode =>
      frameLines style bold width
        (textLines (Node.mk kind props style children).textContent bold width)
    | .document | .page | .view =>
      if style.view.isRow then
        frameLines style bold width
          (Column.compose (renderColumns bold (.ofRow style children width) children))
      else frameLines style bold width (renderBlocks bold width children)

def renderBlocks (bold : Bool) (width : Nat) : List Node → List Line
  | [] => []
  | n :: rest => renderBlock bold width n ++ renderBlocks bold width rest

/-- The columns of those nodes that take one. -/
def renderColumns (bold : Bool) (plan : ColumnPlan) : List Node → List Column
  | [] => []
  | n :: rest =>
    if n.takesColumn then
      let width := plan.widths.headD 0
      { width := width
        align := cellAlignment n.style.text.align plan.justify plan.index plan.count
        lines := renderBlock bold width n } :: renderColumns bold plan.advance rest
    else renderColumns bold plan rest

end

/-- The columns of a row, with the emphasis it inherits. -/
def Node.columns (row : Node) (bold : Bool) (available : Nat) : List Column :=
  renderColumns bold (.ofRow row.style row.children available) row.children

end Receipt
