/-
What a document prints, read off the tree alone.

A piece is one thing on paper: a feed, a border, a line of text, a row, a picture.
`Node.pieces` lists the pieces of a document in order, each with the formatting it is
wanted in.  That formatting is a matter of the path from the root: what the styles on
the way ask for, the inner ones over the outer ones, over what was in force at the
start.  Nothing is remembered from one piece to the next.

Most facts about documents are facts about all of their pieces.  `forall_pieces` says
once where the pieces come from, so that no such fact needs an induction of its own.
-/
import Receipt.Proofs.Printer.Modes
import Receipt.Walk.Basic

namespace Receipt

/-! ### Formatting by paths -/

namespace Format

/-- The formatting at the end of a path from the root, which is given by its styles,
the outermost first. -/
def along (base : Format) (path : List Style) : Format :=
  path.foldl withStyle base

theorem along_concat (base : Format) (path : List Style) (style : Style) :
    base.along (path ++ [style]) = (base.along path).withStyle style := by
  unfold along
  rw [List.foldl_append]
  rfl

/-- The characters that a line of a paper of the given width takes. -/
def columns (f : Format) (paperWidth : Nat) : Nat :=
  paperWidth / (max f.size.width 1).toNat

end Format

theorem CharacterSize.known_of_ofFontSize? {points : Float} {s : CharacterSize}
    (h : CharacterSize.ofFontSize? points = some s) : s.Known := by
  unfold ofFontSize? at h
  split at h
  · simp at h
  · split at h
    · obtain rfl := Option.some.inj h
      decide
    · split at h
      · obtain rfl := Option.some.inj h
        decide
      · split at h <;> obtain rfl := Option.some.inj h <;> decide

/-- No style asks for a size that printers do not know. -/
theorem Format.known_withStyle {f : Format} (h : f.size.Known) (style : Style) :
    (f.withStyle style).size.Known := by
  show (style.text.size.getD f.size).Known
  cases hs : style.text.size with
  | none => exact h
  | some s =>
      obtain ⟨points, -, hpoints⟩ := Option.bind_eq_some_iff.mp hs
      exact CharacterSize.known_of_ofFontSize? hpoints

theorem Format.known_along {base : Format} (h : base.size.Known) (path : List Style) :
    (base.along path).size.Known := by
  induction path generalizing base with
  | nil => exact h
  | cons style rest ih => exact ih (known_withStyle h style)

/-! ### Runs of text -/

mutual

/-- The runs of a text whose line has the given alignment, below the given path. -/
def Node.runs (base : Format) (align : Alignment) (path : List Style) : Node → List Span
  | ⟨kind, props, style, children⟩ =>
    match (Node.mk kind props style children).ownText? with
    | some s => [⟨{ base.along (path ++ [style]) with align := align }, s⟩]
    | none => runsOf base align (path ++ [style]) children

def runsOf (base : Format) (align : Alignment) (path : List Style) : List Node → List Span
  | [] => []
  | n :: rest =>
    if n.kind.isText then n.runs base align path ++ runsOf base align path rest
    else runsOf base align path rest

end

/-- What a style asks for does not depend on the alignment, but for the alignment. -/
theorem Format.withStyle_align (f : Format) (align : Alignment) (style : Style) :
    { Format.withStyle { f with align := align } style with align := align }
      = { f.withStyle style with align := align } := rfl

mutual

/-- **The runs that the walk collects are the runs along the paths.** -/
theorem Node.spans_eq_runs (base : Format) (align : Alignment) (path : List Style) :
    ∀ n : Node, n.spans { base.along (path ++ [n.style]) with align := align }
      = n.runs base align path
  | ⟨kind, props, style, children⟩ => by
      unfold Node.spans Node.runs
      cases (Node.mk kind props style children).ownText? with
      | some s => rfl
      | none => exact spansOf_eq_runsOf base align (path ++ [style]) children

theorem spansOf_eq_runsOf (base : Format) (align : Alignment) (path : List Style) :
    ∀ ns : List Node, spansOf { base.along path with align := align } ns
      = runsOf base align path ns
  | [] => by simp only [spansOf, runsOf]
  | n :: rest => by
      simp only [spansOf, runsOf]
      rw [Format.withStyle_align, ← Format.along_concat, Node.spans_eq_runs base align path n,
        spansOf_eq_runsOf base align path rest]

end

mutual

/-- The formatting of a run is that of a path, but for the alignment of the line. -/
theorem Node.format_of_mem_runs (base : Format) (align : Alignment) (path : List Style) :
    ∀ (n : Node) (s : Span), s ∈ n.runs base align path →
      ∃ p, s.format = { base.along p with align := align }
  | ⟨kind, props, style, children⟩, s, h => by
      unfold Node.runs at h
      split at h
      · obtain rfl := List.mem_singleton.mp h
        exact ⟨_, rfl⟩
      · exact format_of_mem_runsOf base align (path ++ [style]) children s h

theorem format_of_mem_runsOf (base : Format) (align : Alignment) (path : List Style) :
    ∀ (ns : List Node) (s : Span), s ∈ runsOf base align path ns →
      ∃ p, s.format = { base.along p with align := align }
  | [], s, h => by simp [runsOf] at h
  | n :: rest, s, h => by
      unfold runsOf at h
      split at h
      · rcases List.mem_append.mp h with h | h
        · exact Node.format_of_mem_runs base align path n s h
        · exact format_of_mem_runsOf base align path rest s h
      · exact format_of_mem_runsOf base align path rest s h

end

/-! ### Pieces -/

/-- One thing on paper. -/
inductive Piece where
  | feed (lines : Nat)
  | border (f : Format) (text : String)
  /-- Runs of text on one line. -/
  | line (runs : List Span)
  /-- Composed lines, which stand at the left margin. -/
  | row (size : CharacterSize) (lines : List Line)
  | picture (f : Format) (r : Raster)

namespace Piece

def feeds (lines : Nat) : List Piece :=
  if lines = 0 then [] else [.feed lines]

def borders (paperWidth : Nat) (f : Format) (style : Style) (key : String) : List Piece :=
  match style.border? key with
  | some rule => [.border f (rule.line (f.columns paperWidth))]
  | none => []

def texts (runs : List Span) : List Piece :=
  let visible := runs.filter fun s => !s.text.isEmpty
  if visible.isEmpty then [] else [.line visible]

def pictures (images : ImageCache) (paperWidth : Nat) (f : Format) (n : Node) : List Piece :=
  match (n.imageKey? paperWidth).bind images.find? with
  | some r => [.picture f r]
  | none => []

def rows (paperWidth : Nat) (f : Format) (n : Node) : List Piece :=
  [.row f.size (Column.compose (n.columns f.bold (f.columns paperWidth)))]

/-- The content of a node between its borders, and those between its feeds. -/
def framed (paperWidth : Nat) (f : Format) (style : Style) (content : List Piece) : List Piece :=
  feeds style.spacing.top ++ (borders paperWidth f style "borderTop" ++ (content ++
    (borders paperWidth f style "borderBottom" ++ feeds style.spacing.bottom)))

end Piece

mutual

/-- The pieces of a node that stands below the given path. -/
def Node.pieces (images : ImageCache) (paperWidth : Nat) (base : Format) (path : List Style) :
    Node → List Piece
  | ⟨kind, props, style, children⟩ =>
    let n := Node.mk kind props style children
    let f := base.along (path ++ [style])
    match Node.roleOf kind style with
    | .skip => []
    | .text => Piece.framed paperWidth f style (Piece.texts (n.runs base f.align path))
    | .image => Piece.framed paperWidth f style (Piece.pictures images paperWidth f n)
    | .row => Piece.framed paperWidth f style (Piece.rows paperWidth f n)
    | .block =>
      Piece.framed paperWidth f style (piecesOf images paperWidth base (path ++ [style]) children)

def piecesOf (images : ImageCache) (paperWidth : Nat) (base : Format) (path : List Style) :
    List Node → List Piece
  | [] => []
  | n :: rest =>
    n.pieces images paperWidth base path ++ piecesOf images paperWidth base path rest

end

namespace Node

theorem isText_of_role {n : Node} (h : n.role = .text) : n.kind.isText = true := by
  unfold role roleOf at h
  cases hkind : n.kind <;> simp_all [NodeKind.isText]
  all_goals split at h <;> simp at h

theorem isContainer_of_role {n : Node} (h : n.role = .row ∨ n.role = .block) :
    n.kind.isContainer = true := by
  unfold role roleOf at h
  cases hkind : n.kind <;> simp_all [NodeKind.isContainer]

end Node

section

variable (images : ImageCache) (paperWidth : Nat) (base : Format) (path : List Style)

theorem Node.pieces_skip {n : Node} (h : n.role = .skip) :
    n.pieces images paperWidth base path = [] := by
  obtain ⟨kind, props, style, children⟩ := n
  have hrole : Node.roleOf kind style = .skip := h
  unfold Node.pieces
  rw [hrole]

theorem Node.pieces_text {n : Node} (h : n.role = .text) :
    n.pieces images paperWidth base path =
      Piece.framed paperWidth (base.along (path ++ [n.style])) n.style
        (Piece.texts (n.runs base (base.along (path ++ [n.style])).align path)) := by
  obtain ⟨kind, props, style, children⟩ := n
  have hrole : Node.roleOf kind style = .text := h
  unfold Node.pieces
  rw [hrole]

theorem Node.pieces_image {n : Node} (h : n.role = .image) :
    n.pieces images paperWidth base path =
      Piece.framed paperWidth (base.along (path ++ [n.style])) n.style
        (Piece.pictures images paperWidth (base.along (path ++ [n.style])) n) := by
  obtain ⟨kind, props, style, children⟩ := n
  have hrole : Node.roleOf kind style = .image := h
  unfold Node.pieces
  rw [hrole]

theorem Node.pieces_row {n : Node} (h : n.role = .row) :
    n.pieces images paperWidth base path =
      Piece.framed paperWidth (base.along (path ++ [n.style])) n.style
        (Piece.rows paperWidth (base.along (path ++ [n.style])) n) := by
  obtain ⟨kind, props, style, children⟩ := n
  have hrole : Node.roleOf kind style = .row := h
  unfold Node.pieces
  rw [hrole]

theorem Node.pieces_block {n : Node} (h : n.role = .block) :
    n.pieces images paperWidth base path =
      Piece.framed paperWidth (base.along (path ++ [n.style])) n.style
        (piecesOf images paperWidth base (path ++ [n.style]) n.children) := by
  obtain ⟨kind, props, style, children⟩ := n
  have hrole : Node.roleOf kind style = .block := h
  unfold Node.pieces
  rw [hrole]

end

/-! ### What holds of all pieces -/

/-- A property of pieces that holds of whatever a node can print, wherever it stands. -/
structure Piece.Everywhere (images : ImageCache) (paperWidth : Nat) (base : Format)
    (P : Piece → Prop) : Prop where
  feed : ∀ lines, 0 < lines → P (.feed lines)
  border : ∀ path (rule : Rule),
    P (.border (base.along path) (rule.line ((base.along path).columns paperWidth)))
  line : ∀ align runs, (∀ s ∈ runs, s.text.isEmpty = false ∧
      ∃ path, s.format = { base.along path with align := align }) → P (.line runs)
  row : ∀ path (n : Node), P (.row (base.along path).size
    (Column.compose (n.columns (base.along path).bold ((base.along path).columns paperWidth))))
  picture : ∀ path key r, images.find? key = some r → P (.picture (base.along path) r)

namespace Piece.Everywhere

variable {images : ImageCache} {paperWidth : Nat} {base : Format} {P : Piece → Prop}

theorem feeds (h : Everywhere images paperWidth base P) {lines : Nat} {p : Piece}
    (hp : p ∈ Piece.feeds lines) : P p := by
  unfold Piece.feeds at hp
  split at hp
  · simp at hp
  · obtain rfl := List.mem_singleton.mp hp
    exact h.feed lines (by omega)

theorem borders (h : Everywhere images paperWidth base P) {path : List Style} {style : Style}
    {key : String} {p : Piece} (hp : p ∈ Piece.borders paperWidth (base.along path) style key) :
    P p := by
  unfold Piece.borders at hp
  split at hp
  · obtain rfl := List.mem_singleton.mp hp
    exact h.border path _
  · simp at hp

theorem texts (h : Everywhere images paperWidth base P) {align : Alignment} {path : List Style}
    {n : Node} {p : Piece} (hp : p ∈ Piece.texts (n.runs base align path)) : P p := by
  unfold Piece.texts at hp
  dsimp only at hp
  split at hp
  · simp at hp
  · obtain rfl := List.mem_singleton.mp hp
    refine h.line align _ fun s hs => ?_
    obtain ⟨hmem, hvisible⟩ := List.mem_filter.mp hs
    obtain ⟨q, hq⟩ := Node.format_of_mem_runs base align path n s hmem
    exact ⟨by simpa using hvisible, q, hq⟩

theorem pictures (h : Everywhere images paperWidth base P) {path : List Style} {n : Node}
    {p : Piece} (hp : p ∈ Piece.pictures images paperWidth (base.along path) n) : P p := by
  unfold Piece.pictures at hp
  split at hp
  · rename_i r hr
    obtain rfl := List.mem_singleton.mp hp
    obtain ⟨key, -, hkey⟩ := Option.bind_eq_some_iff.mp hr
    exact h.picture path key r hkey
  · simp at hp

theorem framed (h : Everywhere images paperWidth base P) {path : List Style} {style : Style}
    {content : List Piece} (hcontent : ∀ p ∈ content, P p) {p : Piece}
    (hp : p ∈ Piece.framed paperWidth (base.along path) style content) : P p := by
  simp only [Piece.framed, List.mem_append] at hp
  rcases hp with hp | hp | hp | hp | hp
  · exact h.feeds hp
  · exact h.borders hp
  · exact hcontent p hp
  · exact h.borders hp
  · exact h.feeds hp

end Piece.Everywhere

section

variable {images : ImageCache} {paperWidth : Nat} {base : Format} {P : Piece → Prop}

mutual

/-- **What holds of whatever a node can print holds of all that a document prints.** -/
theorem Node.forall_pieces (h : Piece.Everywhere images paperWidth base P)
    (path : List Style) : ∀ (n : Node), ∀ p ∈ n.pieces images paperWidth base path, P p
  | ⟨kind, props, style, children⟩, p, hp => by
      unfold Node.pieces at hp
      cases hrole : Node.roleOf kind style with
      | skip => simp [hrole] at hp
      | text =>
          simp only [hrole] at hp
          exact h.framed (fun q hq => h.texts hq) hp
      | image =>
          simp only [hrole] at hp
          exact h.framed (fun q hq => h.pictures hq) hp
      | row =>
          simp only [hrole] at hp
          refine h.framed (fun q hq => ?_) hp
          obtain rfl := List.mem_singleton.mp hq
          exact h.row _ _
      | block =>
          simp only [hrole] at hp
          exact h.framed (forall_piecesOf h (path ++ [style]) children) hp

theorem forall_piecesOf (h : Piece.Everywhere images paperWidth base P) (path : List Style) :
    ∀ (ns : List Node), ∀ p ∈ piecesOf images paperWidth base path ns, P p
  | [], p, hp => by simp [piecesOf] at hp
  | n :: rest, p, hp => by
      unfold piecesOf at hp
      rcases List.mem_append.mp hp with hp | hp
      · exact Node.forall_pieces h path n p hp
      · exact forall_piecesOf h path rest p hp

end

end

/-- The sizes that a piece is wanted in are ones that printers know. -/
def Piece.Known : Piece → Prop
  | .feed _ => True
  | .border f _ => f.size.Known
  | .line runs => ∀ s ∈ runs, s.format.size.Known
  | .row size _ => size.Known
  | .picture f _ => f.size.Known

theorem Piece.known_everywhere {base : Format} (h : base.size.Known) (images : ImageCache)
    (paperWidth : Nat) : Piece.Everywhere images paperWidth base Piece.Known where
  feed _ _ := trivial
  border path _ := Format.known_along h path
  line _ runs hruns s hs := by
    obtain ⟨-, path, hf⟩ := hruns s hs
    rw [hf]
    exact Format.known_along h path
  row path _ := Format.known_along h path
  picture path _ _ _ := Format.known_along h path

end Receipt
