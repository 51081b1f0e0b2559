/-
Nodes that no reader of a document tells apart.

Five recursions go over a document: the walk, the runs of a text, the text itself, the
blocks and columns of a row, and the list of images.  Two nodes match if every one of them
makes the same of both.  What the recursions read of a node itself are its kind, its
properties and what its style means, which is less than what the style says: styles match
if they mean the same.

Matching is a congruence.  A node matches another one of its kind and properties as soon
as the styles do and what is read of the children is the same; and children that match one
by one are read the same.  So whoever changes a document has to look at the place of the
change alone.
-/
import Mathlib.Data.List.Forall2
import Receipt.Convert
import Receipt.Proofs.Walk.Pieces

namespace Receipt

/-- Styles that mean the same to whatever reads them. -/
structure Style.Matches (s t : Style) : Prop where
  text : t.text = s.text
  view : t.view = s.view
  width : ∀ available, t.width? available = s.width? available
  top : t.border? "borderTop" = s.border? "borderTop"
  bottom : t.border? "borderBottom" = s.border? "borderBottom"
  spacing : t.spacing = s.spacing

/-- Nodes that are read the same.  The text and its runs are asked of texts only. -/
structure Node.Matches (n m : Node) : Prop where
  kind : m.kind = n.kind
  style : n.style.Matches m.style
  text : n.kind.isText = true → m.textContent = n.textContent ∧ ∀ f, m.spans f = n.spans f
  block : ∀ bold width, renderBlock bold width m = renderBlock bold width n
  print : ∀ images, m.print images = n.print images
  images : ∀ paperWidth, m.reachedImages paperWidth = n.reachedImages paperWidth

theorem Node.Matches.takesColumn {n m : Node} (h : n.Matches m) :
    m.takesColumn = n.takesColumn := by
  unfold Node.takesColumn
  rw [h.kind]

theorem Style.Matches.refl (s : Style) : s.Matches s :=
  ⟨rfl, rfl, fun _ => rfl, rfl, rfl, rfl⟩

theorem Node.Matches.refl (n : Node) : n.Matches n :=
  ⟨rfl, .refl n.style, fun _ => ⟨rfl, fun _ => rfl⟩, fun _ _ => rfl, fun _ => rfl, fun _ => rfl⟩

/-! ### Styles that match -/

namespace Style.Matches

variable {s t : Style} (h : s.Matches t)

include h

theorem withStyle (f : Format) : f.withStyle t = f.withStyle s := by
  unfold Format.withStyle
  rw [h.text]

theorem roleOf (kind : NodeKind) : Node.roleOf kind t = Node.roleOf kind s := by
  unfold Node.roleOf
  rw [h.view]

theorem frameLines (bold : Bool) (width : Nat) (content : List Line) :
    Receipt.frameLines t bold width content = Receipt.frameLines s bold width content := by
  unfold Receipt.frameLines borderLines
  rw [h.spacing, h.top, h.bottom]

theorem within (step : Walk Unit) : Walk.within t step = Walk.within s step := by
  funext w
  unfold Walk.within
  rw [h.withStyle]

theorem framed (content : Walk Unit) : Walk.framed t content = Walk.framed s content := by
  unfold Walk.framed Walker.border
  rw [h.spacing, h.top, h.bottom]

theorem imageKey? (kind : NodeKind) (props : Dict Json) (children children' : List Node)
    (paperWidth : Nat) :
    (Node.mk kind props t children').imageKey? paperWidth
      = (Node.mk kind props s children).imageKey? paperWidth := by
  unfold Node.imageKey? Node.imageWidthDots
  rw [h.width]
  rfl

end Style.Matches

/-! ### Nodes of the same kind and properties -/

/-- What is read of children is the same, as far as a node of the given kind and style
reads it. -/
structure ChildrenMatch (kind : NodeKind) (style style' : Style) (ns ms : List Node) : Prop where
  texts : kind.isText = true → textContents ms = textContents ns ∧
    ∀ f, spansOf f ms = spansOf f ns
  columns : Node.roleOf kind style = .row → ∀ bold width,
    renderColumns bold (.ofRow style' ms width) ms = renderColumns bold (.ofRow style ns width) ns
  blocks : Node.roleOf kind style = .block → ∀ bold width,
    renderBlocks bold width ms = renderBlocks bold width ns
  print : Node.roleOf kind style = .block → ∀ images, printAll images ms = printAll images ns
  images : Node.roleOf kind style = .block → ∀ paperWidth,
    reachedImagesOf paperWidth ms = reachedImagesOf paperWidth ns

section

variable {kind : NodeKind} (props : Dict Json) {style style' : Style} {ns ms : List Node}

namespace ChildrenMatch

variable (h : ChildrenMatch kind style style' ns ms) (hstyle : style.Matches style')

include h

theorem textContent (hkind : kind.isText = true) :
    (Node.mk kind props style' ms).textContent = (Node.mk kind props style ns).textContent := by
  have hown : (Node.mk kind props style' ms).ownText? = (Node.mk kind props style ns).ownText? :=
    rfl
  unfold Node.textContent
  rw [hown, (h.texts hkind).1]

theorem spans (hkind : kind.isText = true) (f : Format) :
    (Node.mk kind props style' ms).spans f = (Node.mk kind props style ns).spans f := by
  have hown : (Node.mk kind props style' ms).ownText? = (Node.mk kind props style ns).ownText? :=
    rfl
  unfold Node.spans
  rw [hown, (h.texts hkind).2]

include hstyle

theorem renderBlock (bold : Bool) (width : Nat) :
    Receipt.renderBlock bold width ⟨kind, props, style', ms⟩
      = Receipt.renderBlock bold width ⟨kind, props, style, ns⟩ := by
  have htext := fun hkind => h.textContent props hkind
  have hrow := h.columns
  have hblock := h.blocks
  unfold Receipt.renderBlock
  rw [hstyle.text, hstyle.view]
  cases kind with
  | image => rfl
  | other tag => rfl
  | text => simp only [htext rfl, hstyle.frameLines]
  | textNode => simp only [htext rfl, hstyle.frameLines]
  | document | page | view =>
      dsimp only
      split
      · rename_i hisRow
        rw [hrow (if_pos hisRow), hstyle.frameLines]
      · rename_i hisRow
        rw [hblock (if_neg hisRow), hstyle.frameLines]

theorem print_eq (images : ImageCache) :
    (Node.mk kind props style' ms).print images = (Node.mk kind props style ns).print images := by
  have htext := fun hkind => h.spans props hkind
  have hrow := h.columns
  have hblock := h.print
  unfold Node.print
  rw [hstyle.roleOf]
  cases hrole : Node.roleOf kind style with
  | skip => rfl
  | text =>
      have hkind : kind.isText = true := Node.isText_of_role (n := ⟨kind, props, style, ns⟩) hrole
      have hstep : Walk.text ⟨kind, props, style', ms⟩ = Walk.text ⟨kind, props, style, ns⟩ := by
        unfold Walk.text
        simp only [htext hkind]
      simp only [hstyle.within, hstyle.framed, hstep]
  | image =>
      have hstep : Walk.image images ⟨kind, props, style', ms⟩
          = Walk.image images ⟨kind, props, style, ns⟩ := by
        unfold Walk.image
        simp only [hstyle.imageKey? kind props ns ms]
      simp only [hstyle.within, hstyle.framed, hstep]
  | row =>
      have hstep : Walk.row ⟨kind, props, style', ms⟩ = Walk.row ⟨kind, props, style, ns⟩ := by
        unfold Walk.row Node.columns
        simp only [hrow hrole]
      simp only [hstyle.within, hstyle.framed, hstep]
  | block => simp only [hstyle.within, hstyle.framed, hblock hrole]

theorem reachedImages (paperWidth : Nat) :
    (Node.mk kind props style' ms).reachedImages paperWidth
      = (Node.mk kind props style ns).reachedImages paperWidth := by
  have hblock := h.images
  unfold Node.reachedImages
  rw [hstyle.roleOf]
  cases hrole : Node.roleOf kind style with
  | image => exact congrArg Option.toList (hstyle.imageKey? kind props ns ms paperWidth)
  | block => exact hblock hrole paperWidth
  | _ => rfl

/-- **A node matches one of its kind and properties if the styles mean the same and the
same is read of the children.** -/
theorem node : (Node.mk kind props style ns).Matches ⟨kind, props, style', ms⟩ where
  kind := rfl
  style := hstyle
  text hkind := ⟨h.textContent props hkind, h.spans props hkind⟩
  block := h.renderBlock props hstyle
  print := h.print_eq props hstyle
  images := h.reachedImages props hstyle

end ChildrenMatch

end

/-! ### Children that match one by one -/

section

variable {ns ms : List Node} (h : List.Forall₂ Node.Matches ns ms)

include h

theorem textContents_matches : textContents ms = textContents ns := by
  induction h with
  | nil => rfl
  | cons hn _ ih =>
      rw [textContents, textContents, hn.kind, ih]
      split
      · rename_i hkind
        rw [(hn.text hkind).1]
      · rfl

theorem spansOf_matches (f : Format) : spansOf f ms = spansOf f ns := by
  induction h with
  | nil => rfl
  | cons hn _ ih =>
      rw [spansOf, spansOf, hn.kind, hn.style.withStyle, ih]
      split
      · rename_i hkind
        rw [(hn.text hkind).2]
      · rfl

theorem renderBlocks_matches (bold : Bool) (width : Nat) :
    renderBlocks bold width ms = renderBlocks bold width ns := by
  induction h with
  | nil => rfl
  | cons hn _ ih => rw [renderBlocks, renderBlocks, hn.block, ih]

theorem renderColumns_matches (bold : Bool) (plan : ColumnPlan) :
    renderColumns bold plan ms = renderColumns bold plan ns := by
  induction h generalizing plan with
  | nil => rfl
  | cons hn _ ih =>
      rw [renderColumns, renderColumns, hn.takesColumn, hn.style.text, ih, ih]
      simp only [hn.block]

/-- The columns of a row are planned by the styles of the children that take one. -/
theorem ColumnPlan.ofRow_matches {style style' : Style} (hstyle : style.Matches style')
    (available : Nat) : ofRow style' ms available = ofRow style ns available := by
  have hwidths : (ms.filter Node.takesColumn).map (fun c => c.style.width? available)
      = (ns.filter Node.takesColumn).map (fun c => c.style.width? available) := by
    induction h with
    | nil => rfl
    | cons hn _ ih =>
        rw [List.filter_cons, List.filter_cons, hn.takesColumn]
        split
        · rw [List.map_cons, List.map_cons, hn.style.width, ih]
        · exact ih
  have hcount := congrArg List.length hwidths
  rw [List.length_map, List.length_map] at hcount
  unfold ofRow
  simp only [hwidths, hcount, hstyle.view]

theorem printAll_matches (images : ImageCache) : printAll images ms = printAll images ns := by
  induction h with
  | nil => rfl
  | cons hn _ ih => rw [printAll, printAll, hn.print, ih]

theorem reachedImagesOf_matches (paperWidth : Nat) :
    reachedImagesOf paperWidth ms = reachedImagesOf paperWidth ns := by
  induction h with
  | nil => rfl
  | cons hn _ ih => rw [reachedImagesOf, reachedImagesOf, hn.images, ih]

/-- **Matching is a congruence**: nodes match if their styles and children do. -/
theorem Node.matches_of_children (kind : NodeKind) (props : Dict Json) {style style' : Style}
    (hstyle : style.Matches style') :
    (Node.mk kind props style ns).Matches ⟨kind, props, style', ms⟩ := by
  have hchildren : ChildrenMatch kind style style' ns ms :=
    { texts := fun _ => ⟨textContents_matches h, spansOf_matches h⟩
      columns := fun _ bold width => by
        rw [ColumnPlan.ofRow_matches h hstyle, renderColumns_matches h]
      blocks := fun _ => renderBlocks_matches h
      print := fun _ => printAll_matches h
      images := fun _ => reachedImagesOf_matches h }
  exact hchildren.node props hstyle

end

/-! ### Documents that match -/

namespace Node.Matches

variable {root root' : Node} (h : root.Matches root')

include h

theorem imageRequests (paperWidth : Nat) :
    root'.imageRequests paperWidth = root.imageRequests paperWidth := by
  unfold Node.imageRequests
  rw [h.images]

/-- **Documents that match are printed as the same bytes.** -/
theorem render (o : Options) (d : Dialect) (images : ImageCache) :
    Convert.render root' o d images = Convert.render root o d images := by
  have hprint : ∀ j : Job, j.printNode images root' = j.printNode images root := by
    intro j
    unfold Job.printNode
    rw [h.print]
  unfold Convert.render Convert.renderJob
  simp only [hprint]

end Node.Matches

end Receipt
