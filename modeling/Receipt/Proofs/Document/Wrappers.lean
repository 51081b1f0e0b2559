/-
Wrappers without a style are transparent.

A container that asks for nothing has its children printed as if they stood in its place:
in the walk, since what is wanted inside is what is wanted outside and there is nothing to
feed and no border; in the column of a row, since nothing is framed and the width goes
down unchanged; and in the list of images.  That needs a parent that prints child after
child.  In a row the wrapper is a column, and in a text it keeps its texts from being runs.

For the walk the point is that a step that prints pieces does not look at what stands on
the stack below the formatting it wants.
-/
import Receipt.Proofs.Document.Matching
import Receipt.Proofs.Walk.Does

namespace Receipt

/-- A container that asks for nothing. -/
structure Node.IsWrapper (n : Node) : Prop where
  container : n.kind.isContainer = true
  unstyled : n.style = .empty

/-! ### What the empty style asks for -/

theorem Style.spacing_empty : Style.spacing .empty = ⟨0, 0⟩ := rfl

theorem frameLines_empty (bold : Bool) (width : Nat) (content : List Line) :
    frameLines .empty bold width content = content := by
  unfold frameLines
  rw [Style.spacing_empty]
  exact (List.append_nil _).trans ((List.append_nil _).trans rfl)

theorem Node.role_of_isWrapper {n : Node} (h : n.IsWrapper) : n.role = .block := by
  have hkind := h.container
  unfold role
  rw [h.unstyled]
  cases hk : n.kind with
  | document | page | view => rfl
  | _ => simp [hk, NodeKind.isContainer] at hkind

namespace Walk

theorem framed_empty (content : Walk Unit) : framed .empty content = content := by
  have hspace : (modify fun w => w.space 0 : Walk Unit) = pure () := rfl
  have hborder : ∀ key, (modify fun w => w.border .empty key : Walk Unit) = pure () :=
    fun _ => rfl
  unfold framed
  rw [Style.spacing_empty, hborder, hborder, hspace]
  simp only [pure_bind, bind_pure_unit]

/-- **A step that prints pieces prints the same ones inside a wrapper.** -/
theorem within_empty {step : Walk Unit} (h : ∀ paperWidth f, ∃ ps, Does paperWidth f step ps) :
    within .empty step = step := by
  funext w
  obtain ⟨ps, hps⟩ := h w.job.paperWidth w.desired
  have hinside := hps (w.push (w.desired.withStyle .empty)) rfl rfl
  unfold within
  rw [hinside, prints_push, hps w rfl rfl]
  cases prints ps w <;> rfl

end Walk

/-! ### What is read of a wrapper -/

theorem printAll_append (images : ImageCache) (ns ms : List Node) :
    printAll images (ns ++ ms) = printAll images ns >>= fun _ => printAll images ms := by
  induction ns with
  | nil => rfl
  | cons n rest ih => rw [List.cons_append, printAll, ih, printAll, bind_assoc]

theorem printAll_eq_forM (images : ImageCache) (ns : List Node) :
    printAll images ns = ns.forM (Node.print images) := by
  induction ns with
  | nil => rfl
  | cons n rest ih =>
      rw [printAll, ih]
      rfl

theorem renderBlocks_append (bold : Bool) (width : Nat) (ns ms : List Node) :
    renderBlocks bold width (ns ++ ms)
      = renderBlocks bold width ns ++ renderBlocks bold width ms := by
  induction ns with
  | nil => rfl
  | cons n rest ih => rw [List.cons_append, renderBlocks, ih, renderBlocks, List.append_assoc]

theorem reachedImagesOf_append (paperWidth : Nat) (ns ms : List Node) :
    reachedImagesOf paperWidth (ns ++ ms)
      = reachedImagesOf paperWidth ns ++ reachedImagesOf paperWidth ms := by
  induction ns with
  | nil => rfl
  | cons n rest ih =>
      rw [List.cons_append, reachedImagesOf, ih, reachedImagesOf, List.append_assoc]

namespace Node.IsWrapper

variable {w : Node} (h : w.IsWrapper)

include h

theorem print_eq (images : ImageCache) : w.print images = printAll images w.children := by
  have hrole := Node.role_of_isWrapper h
  obtain ⟨kind, props, style, children⟩ := w
  obtain rfl : style = .empty := h.unstyled
  have hrole' : Node.roleOf kind .empty = .block := hrole
  rw [Node.print, hrole']
  dsimp only
  rw [Walk.framed_empty, Walk.within_empty]
  intro paperWidth f
  exact ⟨_, printAll_does images paperWidth f [] children⟩

theorem renderBlock_eq (bold : Bool) (width : Nat) :
    renderBlock bold width w = renderBlocks bold width w.children := by
  have hkind := h.container
  obtain ⟨kind, props, style, children⟩ := w
  obtain rfl : style = .empty := h.unstyled
  unfold renderBlock
  cases kind with
  | document | page | view => exact frameLines_empty _ _ _
  | _ => simp [NodeKind.isContainer] at hkind

theorem reachedImages_eq (paperWidth : Nat) :
    w.reachedImages paperWidth = reachedImagesOf paperWidth w.children := by
  have hrole := Node.role_of_isWrapper h
  obtain ⟨kind, props, style, children⟩ := w
  have hrole' : Node.roleOf kind style = .block := hrole
  rw [Node.reachedImages, hrole']

/-- **To a block, a wrapper among its children is its own children.** -/
theorem childrenMatch {kind : NodeKind} {style : Style} (hkind : kind.isContainer = true)
    (hrow : style.view.isRow = false) (before after : List Node) :
    ChildrenMatch kind style style (before ++ w :: after) (before ++ (w.children ++ after)) where
  texts htext := by cases kind <;> simp_all [NodeKind.isContainer, NodeKind.isText]
  columns hrole := by cases kind <;> simp_all [NodeKind.isContainer, Node.roleOf]
  blocks _ bold width := by
    rw [renderBlocks_append, renderBlocks_append, renderBlocks_append, renderBlocks,
      h.renderBlock_eq]
  print _ images := by
    rw [printAll_append, printAll_append, printAll_append, printAll, h.print_eq]
  images _ paperWidth := by
    rw [reachedImagesOf_append, reachedImagesOf_append, reachedImagesOf_append, reachedImagesOf,
      h.reachedImages_eq]

end Node.IsWrapper

/-! ### Documents -/

/-- A document with one wrapper, somewhere in it, replaced by its children.  The parent of
the wrapper is a container that is no row; what stands above that may be anything. -/
inductive Node.Unwrapped : Node → Node → Prop
  | here {kind props style before w after} (hkind : kind.isContainer = true)
      (hrow : style.view.isRow = false) (hw : w.IsWrapper) :
      Node.Unwrapped ⟨kind, props, style, before ++ w :: after⟩
        ⟨kind, props, style, before ++ (w.children ++ after)⟩
  | inside {kind props style before n m after} (h : Node.Unwrapped n m) :
      Node.Unwrapped ⟨kind, props, style, before ++ n :: after⟩
        ⟨kind, props, style, before ++ m :: after⟩

theorem Node.Unwrapped.matches_node {n m : Node} (h : n.Unwrapped m) : n.Matches m := by
  induction h with
  | here hkind hrow hw => exact (hw.childrenMatch hkind hrow _ _).node _ (.refl _)
  | @inside _ _ _ before n m after _ ih =>
      have hsame : ∀ ns : List Node, List.Forall₂ Node.Matches ns ns := fun ns =>
        List.forall₂_same.mpr fun x _ => .refl x
      have hchildren : List.Forall₂ Node.Matches (before ++ n :: after) (before ++ m :: after) :=
        List.rel_append (hsame before) (.cons ih (hsame after))
      exact Node.matches_of_children hchildren _ _ (.refl _)

namespace Convert

/-- **Wrappers are transparent.**  With a wrapper replaced by its children, wherever child
after child is printed, a document is printed as the same bytes for every dialect, with
all options and images, and asks for the same images.  And a document that is a wrapper is
its children, printed one after the other in the same walk. -/
theorem wrappers_transparent :
    (∀ root root' : Node, root.Unwrapped root' →
      (∀ (o : Options) (d : Dialect) (images : ImageCache),
        render root' o d images = render root o d images) ∧
      ∀ paperWidth, root'.imageRequests paperWidth = root.imageRequests paperWidth) ∧
    ∀ root : Node, root.IsWrapper → ∀ images : ImageCache,
      root.print images = root.children.forM (Node.print images) := by
  refine ⟨fun root root' h => ?_, fun root h images => ?_⟩
  · exact ⟨h.matches_node.render, h.matches_node.imageRequests⟩
  · rw [h.print_eq, printAll_eq_forM]

/-- Items below one another in the column of a row. -/
def stacked (items : List Node) : Node :=
  (Node.view [Node.view items]).withStyle (Dict.ofList [("flexDirection", .string "row")])

/-- The wrapper is two levels down, in a column, and a document in its own right. -/
theorem wrappers_transparent_stacked :
    let wrapper := Node.document [Node.ofText "Coffee"]
    let wrapped := stacked [wrapper, Node.ofText "3.50"]
    let plain := stacked [Node.ofText "Coffee", Node.ofText "3.50"]
    wrapped.Unwrapped plain ∧
    render plain .default EscPos.dialect [] = render wrapped .default EscPos.dialect [] ∧
    wrapper.IsWrapper ∧
    wrapper.print [] = [Node.ofText "Coffee"].forM (Node.print []) := by
  intro wrapper wrapped plain
  have hwrapper : wrapper.IsWrapper := ⟨rfl, rfl⟩
  have hspliced : (Node.view [wrapper, Node.ofText "3.50"]).Unwrapped
      (Node.view [Node.ofText "Coffee", Node.ofText "3.50"]) :=
    @Node.Unwrapped.here .view .empty .empty [] wrapper [Node.ofText "3.50"] rfl rfl hwrapper
  have hunwrapped : wrapped.Unwrapped plain :=
    @Node.Unwrapped.inside .view .empty wrapped.style [] _ _ [] hspliced
  obtain ⟨hsame, hroot⟩ := wrappers_transparent
  exact ⟨hunwrapped, (hsame _ _ hunwrapped).1 _ _ _, hwrapper, hroot wrapper hwrapper []⟩

end Convert

end Receipt
