/-
Dead nodes: what a document holds and never prints.

A child is dead if its kind is unknown, if it is an image somewhere inside a row or a
text, if it stands in a text without being one, or in a text that has text of its own, or
in an image.  `Node.pruned` leaves out the dead nodes of a document with all that they
hold.

Four recursions go over a document, and each passes over dead nodes by a rule of its own:
the walk, the runs of a text, the columns of a row and the list of images.  So there are
four inductions here, each with its twin for children.  What they have in common is what a
text and what a container drop; and that pruning changes nothing of a node but its
children, so whatever is asked of the node itself is answered as before.
-/
import Receipt.Convert
import Receipt.Proofs.Walk.Does

namespace Receipt

/-- Whether a kind is of no known tag. -/
def NodeKind.isUnknown : NodeKind → Bool
  | .other _ => true
  | _ => false

namespace Node

/-- Whether a node prints what it holds as text alone: a text as its runs, and a row as
the lines of its columns. -/
def holdsText (n : Node) : Bool :=
  n.kind.isText || n.role == .row

/-- Whether a child of a node is dead.  `inside` says whether a row or a text stands above
the child. -/
def drops (parent : Node) (inside : Bool) (child : Node) : Bool :=
  child.kind.isUnknown ||
  (child.kind == .image && inside) ||
  (parent.kind.isText && !child.kind.isText) ||
  (parent.kind.isText && parent.ownText?.isSome) ||
  parent.kind == .image

end Node

mutual

/-- A node without the dead ones below it.  `inside` says whether a row or a text stands
above the node. -/
def Node.prune (inside : Bool) : Node → Node
  | ⟨kind, props, style, children⟩ =>
    let n := Node.mk kind props style children
    ⟨kind, props, style, pruneChildren n (inside || n.holdsText) children⟩

/-- The children of a node that are not dead, without the dead ones below them. -/
def pruneChildren (parent : Node) (inside : Bool) : List Node → List Node
  | [] => []
  | n :: rest =>
    if parent.drops inside n then pruneChildren parent inside rest
    else n.prune inside :: pruneChildren parent inside rest

end

/-- A document without the dead nodes below its root. -/
def Node.pruned (root : Node) : Node :=
  root.prune false

/-! ### The node itself -/

namespace Node

@[simp] theorem kind_prune (inside : Bool) (n : Node) : (n.prune inside).kind = n.kind := by
  cases n
  rw [prune]

@[simp] theorem props_prune (inside : Bool) (n : Node) : (n.prune inside).props = n.props := by
  cases n
  rw [prune]

@[simp] theorem style_prune (inside : Bool) (n : Node) : (n.prune inside).style = n.style := by
  cases n
  rw [prune]

@[simp] theorem role_prune (inside : Bool) (n : Node) : (n.prune inside).role = n.role := by
  unfold role
  rw [kind_prune, style_prune]

theorem imageKey?_prune (inside : Bool) (n : Node) (paperWidth : Nat) :
    (n.prune inside).imageKey? paperWidth = n.imageKey? paperWidth := by
  unfold imageKey? imageSource? imageWidthDots
  rw [props_prune, style_prune]

theorem takesColumn_prune (inside : Bool) (n : Node) :
    (n.prune inside).takesColumn = n.takesColumn := by
  unfold takesColumn
  rw [kind_prune]

/-- A block has left of its children what is not dead outside rows and texts. -/
theorem children_prune_block {n : Node} (h : n.role = .block) :
    (n.prune false).children = pruneChildren n false n.children := by
  have htext : n.kind.isText = false := by
    unfold role roleOf at h
    cases hkind : n.kind <;> simp_all [NodeKind.isText]
  have hholds : n.holdsText = false := by
    unfold holdsText
    rw [htext, h]
    rfl
  obtain ⟨kind, props, style, children⟩ := n
  rw [prune]
  simp only [hholds, Bool.or_false]

/-! ### What is dropped -/

/-- A text without text of its own drops nothing that is a text. -/
theorem isText_of_drops {parent child : Node} {inside : Bool} (htext : parent.kind.isText = true)
    (hown : parent.ownText? = none) (h : parent.drops inside child = true) :
    child.kind.isText = false := by
  have himage : (parent.kind == .image) = false := by
    cases hkind : parent.kind <;> simp_all [NodeKind.isText]
  simp only [drops, htext, hown, himage, Option.isSome_none, Bool.true_and, Bool.or_false,
    Bool.or_eq_true, Bool.and_eq_true, beq_iff_eq] at h
  cases hkind : child.kind <;> simp_all [NodeKind.isText, NodeKind.isUnknown]

/-- A container drops unknown nodes, and inside a row images. -/
theorem drops_container {parent : Node} (hparent : parent.kind.isContainer = true)
    (inside : Bool) (child : Node) :
    parent.drops inside child = (child.kind.isUnknown || (child.kind == .image && inside)) := by
  unfold drops
  cases hkind : parent.kind <;> simp_all [NodeKind.isContainer, NodeKind.isText]

theorem takesColumn_of_drops {parent child : Node} {inside : Bool}
    (hparent : parent.kind.isContainer = true) (h : parent.drops inside child = true) :
    child.takesColumn = false := by
  rw [drops_container hparent] at h
  unfold takesColumn
  cases hkind : child.kind <;> simp_all [NodeKind.isUnknown]

/-- Outside rows and texts a container drops what the walk skips. -/
theorem role_of_drops {parent child : Node} (hparent : parent.kind.isContainer = true)
    (h : parent.drops false child = true) : child.role = .skip := by
  rw [drops_container hparent] at h
  unfold role roleOf
  cases hkind : child.kind <;> simp_all [NodeKind.isUnknown]

end Node

/-! ### Texts -/

section

variable (base : Format) (align : Alignment)

mutual

/-- **The runs of a text are those of what is left of it.** -/
theorem Node.runs_prune (path : List Style) (inside : Bool) : ∀ n : Node,
    n.kind.isText = true → (n.prune inside).runs base align path = n.runs base align path
  | ⟨kind, props, style, children⟩, htext => by
      unfold Node.prune Node.runs
      dsimp only
      have hown : ∀ children', (Node.mk kind props style children').ownText?
          = (Node.mk kind props style children).ownText? := fun _ => rfl
      rw [hown]
      cases h : (Node.mk kind props style children).ownText? with
      | some s => rfl
      | none => exact runsOf_prune htext h (path ++ [style]) _ children

theorem runsOf_prune {parent : Node} (htext : parent.kind.isText = true)
    (hown : parent.ownText? = none) (path : List Style) (inside : Bool) : ∀ ns : List Node,
    runsOf base align path (pruneChildren parent inside ns) = runsOf base align path ns
  | [] => by rw [pruneChildren]
  | n :: rest => by
      have hrest := runsOf_prune htext hown path inside rest
      rw [pruneChildren]
      by_cases hdrops : parent.drops inside n = true
      · rw [if_pos hdrops, hrest, runsOf, if_neg (by simp [Node.isText_of_drops htext hown hdrops])]
      · rw [if_neg hdrops, runsOf, runsOf, Node.kind_prune, hrest]
        by_cases hn : n.kind.isText = true
        · rw [if_pos hn, if_pos hn, Node.runs_prune path inside n hn]
        · rw [if_neg hn, if_neg hn]

end

end

mutual

/-- **The text of a text is that of what is left of it.** -/
theorem Node.textContent_prune (inside : Bool) : ∀ n : Node,
    n.kind.isText = true → (n.prune inside).textContent = n.textContent
  | ⟨kind, props, style, children⟩, htext => by
      unfold Node.prune Node.textContent
      have hown : ∀ children', (Node.mk kind props style children').ownText?
          = (Node.mk kind props style children).ownText? := fun _ => rfl
      rw [hown]
      cases h : (Node.mk kind props style children).ownText? with
      | some s => rfl
      | none => exact textContents_prune htext h _ children

theorem textContents_prune {parent : Node} (htext : parent.kind.isText = true)
    (hown : parent.ownText? = none) (inside : Bool) : ∀ ns : List Node,
    textContents (pruneChildren parent inside ns) = textContents ns
  | [] => by rw [pruneChildren]
  | n :: rest => by
      have hrest := textContents_prune htext hown inside rest
      rw [pruneChildren]
      by_cases hdrops : parent.drops inside n = true
      · rw [if_pos hdrops, hrest, textContents,
          if_neg (by simp [Node.isText_of_drops htext hown hdrops])]
      · rw [if_neg hdrops, textContents, textContents, Node.kind_prune, hrest]
        by_cases hn : n.kind.isText = true
        · rw [if_pos hn, if_pos hn, Node.textContent_prune inside n hn]
        · rw [if_neg hn, if_neg hn]

end

/-! ### Rows -/

/-- What is left of the children that take a column are those with the styles they had. -/
theorem map_style_prune {parent : Node} (hparent : parent.kind.isContainer = true)
    (inside : Bool) (ns : List Node) :
    ((pruneChildren parent inside ns).filter Node.takesColumn).map Node.style
      = (ns.filter Node.takesColumn).map Node.style := by
  induction ns with
  | nil => rw [pruneChildren]
  | cons n rest ih =>
      rw [pruneChildren]
      by_cases hdrops : parent.drops inside n = true
      · have hcolumn := Node.takesColumn_of_drops hparent hdrops
        rw [if_pos hdrops, ih, List.filter_cons_of_neg (by simp [hcolumn])]
      · rw [if_neg hdrops]
        by_cases hcolumn : n.takesColumn = true
        · rw [List.filter_cons_of_pos (by rw [Node.takesColumn_prune]; exact hcolumn),
            List.filter_cons_of_pos hcolumn, List.map_cons, List.map_cons, Node.style_prune, ih]
        · rw [List.filter_cons_of_neg (by rw [Node.takesColumn_prune]; exact hcolumn),
            List.filter_cons_of_neg hcolumn, ih]

/-- So the columns are planned as before. -/
theorem ColumnPlan.ofRow_prune {parent : Node} (hparent : parent.kind.isContainer = true)
    (style : Style) (inside : Bool) (ns : List Node) (available : Nat) :
    ofRow style (pruneChildren parent inside ns) available = ofRow style ns available := by
  have hstyles := map_style_prune hparent inside ns
  have hwidths := congrArg (List.map fun s : Style => s.width? available) hstyles
  have hcount := congrArg List.length hstyles
  rw [List.map_map, List.map_map] at hwidths
  rw [List.length_map, List.length_map] at hcount
  unfold ofRow
  dsimp only
  rw [hcount]
  exact congrArg (fun widths => ColumnPlan.mk (columnWidths widths available) 0 _ _) hwidths

/-- What takes no column has no lines either. -/
theorem renderBlock_eq_nil {n : Node} (h : n.takesColumn = false) (bold : Bool) (width : Nat) :
    renderBlock bold width n = [] := by
  obtain ⟨kind, props, style, children⟩ := n
  unfold renderBlock
  cases kind with
  | image => rfl
  | other tag => rfl
  | _ => simp [Node.takesColumn] at h

mutual

/-- **In a column a node has the lines of what is left of it.** -/
theorem renderBlock_prune (bold : Bool) (width : Nat) (inside : Bool) : ∀ n : Node,
    renderBlock bold width (n.prune inside) = renderBlock bold width n
  | ⟨kind, props, style, children⟩ => by
      have htext := Node.textContent_prune inside ⟨kind, props, style, children⟩
      have hcontainer := fun h : (Node.mk kind props style children).kind.isContainer = true =>
        renderBlocks_prune h (style.text.bold.getD bold) width
          (inside || (Node.mk kind props style children).holdsText) children
      have hrow := fun h : (Node.mk kind props style children).kind.isContainer = true =>
        renderColumns_prune h (style.text.bold.getD bold)
          (inside || (Node.mk kind props style children).holdsText) children
      have hplan := fun h : (Node.mk kind props style children).kind.isContainer = true =>
        ColumnPlan.ofRow_prune h style
          (inside || (Node.mk kind props style children).holdsText) children width
      rw [Node.prune] at htext ⊢
      unfold renderBlock
      cases kind with
      | image => rfl
      | other tag => rfl
      | text => simp only [htext rfl]
      | textNode => simp only [htext rfl]
      | document | page | view => simp only [hplan rfl, hrow rfl, hcontainer rfl]

theorem renderBlocks_prune {parent : Node} (hparent : parent.kind.isContainer = true)
    (bold : Bool) (width : Nat) (inside : Bool) : ∀ ns : List Node,
    renderBlocks bold width (pruneChildren parent inside ns) = renderBlocks bold width ns
  | [] => by rw [pruneChildren]
  | n :: rest => by
      have hrest := renderBlocks_prune hparent bold width inside rest
      rw [pruneChildren]
      by_cases hdrops : parent.drops inside n = true
      · rw [if_pos hdrops, hrest, renderBlocks,
          renderBlock_eq_nil (Node.takesColumn_of_drops hparent hdrops), List.nil_append]
      · rw [if_neg hdrops, renderBlocks, renderBlocks, hrest, renderBlock_prune bold width inside n]

theorem renderColumns_prune {parent : Node} (hparent : parent.kind.isContainer = true)
    (bold : Bool) (inside : Bool) : ∀ (ns : List Node) (plan : ColumnPlan),
    renderColumns bold plan (pruneChildren parent inside ns) = renderColumns bold plan ns
  | [], plan => by rw [pruneChildren]
  | n :: rest, plan => by
      have hrest := renderColumns_prune hparent bold inside rest
      rw [pruneChildren]
      by_cases hdrops : parent.drops inside n = true
      · rw [if_pos hdrops, hrest, renderColumns,
          if_neg (by simp [Node.takesColumn_of_drops hparent hdrops])]
      · have hblock := fun width => renderBlock_prune bold width inside n
        rw [if_neg hdrops, renderColumns, renderColumns, Node.takesColumn_prune, Node.style_prune]
        simp only [hblock, hrest]

end

/-- **A row is laid out as what is left of it.** -/
theorem Node.columns_prune {n : Node} (hrow : n.role = .row) (inside bold : Bool)
    (available : Nat) : (n.prune inside).columns bold available = n.columns bold available := by
  have hcontainer := isContainer_of_role (Or.inl hrow)
  obtain ⟨kind, props, style, children⟩ := n
  rw [prune]
  unfold columns
  rw [ColumnPlan.ofRow_prune hcontainer, renderColumns_prune hcontainer]

/-! ### Documents -/

section

variable (images : ImageCache) (paperWidth : Nat) (base : Format)

mutual

/-- **A node has the pieces of what is left of it.** -/
theorem Node.pieces_prune (path : List Style) : ∀ n : Node,
    (n.prune false).pieces images paperWidth base path = n.pieces images paperWidth base path
  | ⟨kind, props, style, children⟩ => by
      have hchildren := fun h : (Node.mk kind props style children).kind.isContainer = true =>
        piecesOf_prune h (path ++ [style]) children
      have hblock := @Node.children_prune_block ⟨kind, props, style, children⟩
      generalize hn : Node.mk kind props style children = n at *
      have hrole' := Node.role_prune false n
      cases hrole : n.role with
      | skip =>
          rw [Node.pieces_skip _ _ _ _ hrole, Node.pieces_skip _ _ _ _ (hrole'.trans hrole)]
      | text =>
          have htext : n.kind.isText = true := Node.isText_of_role hrole
          rw [Node.pieces_text _ _ _ _ hrole, Node.pieces_text _ _ _ _ (hrole'.trans hrole),
            Node.style_prune, Node.runs_prune _ _ _ _ _ htext]
      | image =>
          rw [Node.pieces_image _ _ _ _ hrole, Node.pieces_image _ _ _ _ (hrole'.trans hrole),
            Node.style_prune]
          unfold Piece.pictures
          rw [Node.imageKey?_prune]
      | row =>
          rw [Node.pieces_row _ _ _ _ hrole, Node.pieces_row _ _ _ _ (hrole'.trans hrole),
            Node.style_prune]
          unfold Piece.rows
          rw [Node.columns_prune hrole]
      | block =>
          rw [Node.pieces_block _ _ _ _ hrole, Node.pieces_block _ _ _ _ (hrole'.trans hrole),
            Node.style_prune, hblock hrole]
          subst hn
          rw [hchildren (Node.isContainer_of_role (Or.inr hrole))]

theorem piecesOf_prune {parent : Node} (hparent : parent.kind.isContainer = true)
    (path : List Style) : ∀ ns : List Node,
    piecesOf images paperWidth base path (pruneChildren parent false ns)
      = piecesOf images paperWidth base path ns
  | [] => by rw [pruneChildren]
  | n :: rest => by
      have hrest := piecesOf_prune hparent path rest
      rw [pruneChildren]
      by_cases hdrops : parent.drops false n = true
      · have hskip : n.role = .skip := Node.role_of_drops hparent hdrops
        rw [if_pos hdrops, hrest, piecesOf, Node.pieces_skip _ _ _ _ hskip, List.nil_append]
      · rw [if_neg hdrops, piecesOf, piecesOf, hrest, Node.pieces_prune path n]

end

end

/-! ### Images -/

section

variable (paperWidth : Nat)

mutual

/-- **A node reaches the images of what is left of it.** -/
theorem Node.reachedImages_prune : ∀ n : Node,
    (n.prune false).reachedImages paperWidth = n.reachedImages paperWidth
  | ⟨kind, props, style, children⟩ => by
      have hchildren := fun h : (Node.mk kind props style children).kind.isContainer = true =>
        reachedImagesOf_prune h children
      have hblock := @Node.children_prune_block ⟨kind, props, style, children⟩
      have hcontainer := @Node.isContainer_of_role ⟨kind, props, style, children⟩
      rw [Node.prune] at hblock ⊢
      unfold Node.reachedImages
      cases hrole : Node.roleOf kind style with
      | block => exact (congrArg _ (hblock hrole)).trans (hchildren (hcontainer (Or.inr hrole)))
      | _ => rfl

theorem reachedImagesOf_prune {parent : Node} (hparent : parent.kind.isContainer = true) :
    ∀ ns : List Node, reachedImagesOf paperWidth (pruneChildren parent false ns)
      = reachedImagesOf paperWidth ns
  | [] => by rw [pruneChildren]
  | n :: rest => by
      have hrest := reachedImagesOf_prune hparent rest
      rw [pruneChildren]
      by_cases hdrops : parent.drops false n = true
      · have hskip : n.role = .skip := Node.role_of_drops hparent hdrops
        have hnone : n.reachedImages paperWidth = [] := by
          obtain ⟨kind, props, style, children⟩ := n
          have hrole : Node.roleOf kind style = .skip := hskip
          rw [Node.reachedImages, hrole]
        rw [if_pos hdrops, hrest, reachedImagesOf, hnone, List.nil_append]
      · rw [if_neg hdrops, reachedImagesOf, reachedImagesOf, hrest, Node.reachedImages_prune n]

end

end

/-! ### What pruning leaves as it was -/

namespace Convert

/-- **Dead nodes are invisible.**  Without them a document is printed as the same bytes for
every dialect, with all options and images; it asks for the same images; and a row is laid
out in the same columns. -/
theorem render_pruned (root : Node) :
    (∀ (o : Options) (d : Dialect) (images : ImageCache),
      render root.pruned o d images = render root o d images) ∧
    (∀ paperWidth, root.pruned.imageRequests paperWidth = root.imageRequests paperWidth) ∧
    (root.role = .row → ∀ (bold : Bool) (available : Nat),
      root.pruned.columns bold available = root.columns bold available) := by
  refine ⟨fun o d images => ?_, fun paperWidth => ?_, fun hrow bold available => ?_⟩
  · have hprint : ∀ j : Job, j.printNode images root.pruned = j.printNode images root := by
      intro j
      rw [Job.printNode_eq_pieces, Job.printNode_eq_pieces, Node.pruned, Node.pieces_prune]
    unfold render renderJob
    simp only [hprint]
  · unfold Node.imageRequests
    rw [Node.pruned, Node.reachedImages_prune]
  · exact Node.columns_prune hrow false bold available

end Convert

end Receipt
