/-
The walk over a document that prints it.

The walk remembers the formatting that each node on the way down wants: that of
the node above it, with what its own style asks for.  Wanting sends nothing.  The
printer is brought to the wanted formatting right before something is printed,
and the job drops what is in force already.  So a document never ends with modes
that nothing is printed in, and neighbours of one style pay for it once.

A node prints, in this order, the feed above it, the border above, its content,
the border below and the feed below it.
-/
import Receipt.Job
import Receipt.Row.Layout
import Receipt.Walk.Images

namespace Receipt

/-- A walk in progress: the job so far, and the formatting that is wanted at each
level, the innermost first. -/
structure Walker where
  job : Job
  wanted : List Format

namespace Walker

/-- A walk that starts with the formatting the job is in. -/
def start (job : Job) : Walker :=
  ⟨job, [job.format]⟩

def desired (w : Walker) : Format :=
  w.wanted.headD .default

/-- One level down, wanting `f`. -/
def push (w : Walker) (f : Format) : Walker :=
  { w with wanted := f :: w.wanted }

def pop (w : Walker) : Walker :=
  { w with wanted := w.wanted.tail }

/-- Characters in a line at the wanted width. -/
def availableWidth (w : Walker) : Nat :=
  w.job.paperWidth / (max w.desired.size.width 1).toNat

/-- Bring the printer to the wanted formatting. -/
def sync (w : Walker) : Walker :=
  { w with job := w.job.apply w.desired }

/-- Feed the empty lines beside a node, if there are any. -/
def space (w : Walker) (lines : Nat) : Walker :=
  if lines = 0 then w else { w with job := w.job.feed lines }

/-- Print a border across the line, if the style asks for one. -/
def border (w : Walker) (style : Style) (key : String) : Walker :=
  match style.border? key with
  | some rule =>
    { w with job := ((w.sync.job).text (rule.line w.availableWidth)).newline }
  | none => w

end Walker

/-! ### Text -/

/-- A run of text with its formatting. -/
structure Span where
  format : Format
  text : String
  deriving DecidableEq, Repr

mutual

/-- The runs of a text in reading order.  Text of its own wins over children; what
a child asks for applies to it, except that one line has one alignment. -/
def Node.spans (f : Format) : Node → List Span
  | ⟨kind, props, style, children⟩ =>
    match (Node.mk kind props style children).ownText? with
    | some s => [⟨f, s⟩]
    | none => spansOf f children

/-- The runs of the nodes that hold text, inside a text of the given formatting. -/
def spansOf (f : Format) : List Node → List Span
  | [] => []
  | n :: rest =>
    if n.kind.isText then
      n.spans { f.withStyle n.style with align := f.align } ++ spansOf f rest
    else spansOf f rest

end

namespace Job

def span (j : Job) (s : Span) : Job :=
  (j.apply s.format).text s.text

/-- Print runs of text on one line.  Runs without text are passed over, and if
there are no others there is no line. -/
def spanLine (j : Job) (spans : List Span) : Job :=
  let visible := spans.filter fun s => !s.text.isEmpty
  if visible.isEmpty then j else (visible.foldl span j).newline

def segment (j : Job) (s : Segment) : Job :=
  (j.setBold s.bold).text s.text

def line (j : Job) (l : Line) : Job :=
  (l.foldl segment j).newline

/-- Print composed lines from the left margin. -/
def lines (j : Job) (size : CharacterSize) (ls : List Line) : Job :=
  ls.foldl line ((j.setAlign .left).setSize size)

end Job

/-! ### Nodes -/

/-- A step of the walk, which may fail. -/
abbrev Walk := EStateM Error Walker

namespace Walk

/-- A step with the formatting of a node wanted, and the former one after it,
also when the step fails. -/
def within (style : Style) (step : Walk Unit) : Walk Unit := fun w =>
  match step (w.push (w.desired.withStyle style)) with
  | .ok _ w => .ok () w.pop
  | .error e w => .error e w.pop

/-- The content of a node between its feeds and borders. -/
def framed (style : Style) (content : Walk Unit) : Walk Unit := do
  modify fun w => w.space style.spacing.top
  modify fun w => w.border style "borderTop"
  content
  modify fun w => w.border style "borderBottom"
  modify fun w => w.space style.spacing.bottom

def text (n : Node) : Walk Unit :=
  modify fun w => { w with job := w.job.spanLine (n.spans w.desired) }

/-- Print the raster of an image, if one was made for it. -/
def image (images : ImageCache) (n : Node) : Walk Unit := do
  let w ← get
  match (n.imageKey? w.job.paperWidth).bind images.find? with
  | none => pure ()
  | some r =>
    let w := w.sync
    set w
    match w.job.raster r with
    | .ok job => set { w with job := job }
    | .error e => throw e

def row (n : Node) : Walk Unit :=
  modify fun w =>
    let lines := Column.compose (n.columns w.desired.bold w.availableWidth)
    { w with job := w.job.lines w.desired.size lines }

end Walk

mutual

/-- Print a node with all that it holds. -/
def Node.print (images : ImageCache) : Node → Walk Unit
  | ⟨kind, props, style, children⟩ =>
    match Node.roleOf kind style with
    | .skip => pure ()
    | .text => Walk.within style (Walk.framed style (Walk.text ⟨kind, props, style, children⟩))
    | .image =>
      Walk.within style (Walk.framed style (Walk.image images ⟨kind, props, style, children⟩))
    | .row => Walk.within style (Walk.framed style (Walk.row ⟨kind, props, style, children⟩))
    | .block => Walk.within style (Walk.framed style (printAll images children))

def printAll (images : ImageCache) : List Node → Walk Unit
  | [] => pure ()
  | n :: rest => do
    n.print images
    printAll images rest

end

/-- A job with a document printed, and why printing stopped if it did. -/
def Job.printNode (j : Job) (images : ImageCache) (root : Node) : Job × Option Error :=
  match root.print images (Walker.start j) with
  | .ok _ w => (w.job, none)
  | .error e w => (w.job, some e)

end Receipt
