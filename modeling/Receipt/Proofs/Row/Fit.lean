/-
Lines keep to the width they are rendered at.

Rendering goes by what a node does: texts are wrapped, rows are composed of their columns,
blocks are one child after the other, and each of them is framed.  What the frame adds is
empty lines and borders, and a border is as long as the width.  Wrapped text is no wider
than that, provided there is a width, and a composed line never is.
-/
import Receipt.Proofs.Row.Layout
import Receipt.Proofs.Text.Ink
import Receipt.Proofs.Walk.Pieces

namespace Receipt

/-! ### Rendering by roles -/

section

variable (bold : Bool) (width : Nat) {n : Node}

theorem renderBlock_text (h : n.role = .text) :
    renderBlock bold width n = frameLines n.style (n.style.text.bold.getD bold) width
      (textLines n.textContent (n.style.text.bold.getD bold) width) := by
  have hkind := Node.isText_of_role h
  obtain ⟨kind, props, style, children⟩ := n
  unfold renderBlock
  cases kind with
  | text => rfl
  | textNode => rfl
  | _ => simp [NodeKind.isText] at hkind

theorem renderBlock_row (h : n.role = .row) :
    renderBlock bold width n = frameLines n.style (n.style.text.bold.getD bold) width
      (Column.compose (n.columns (n.style.text.bold.getD bold) width)) := by
  have hkind := Node.isContainer_of_role (Or.inl h)
  obtain ⟨kind, props, style, children⟩ := n
  have hrow : style.view.isRow = true := by
    cases kind <;> simp_all [Node.role, Node.roleOf, NodeKind.isContainer]
  unfold renderBlock
  cases kind with
  | document | page | view => exact if_pos hrow
  | _ => simp [NodeKind.isContainer] at hkind

theorem renderBlock_block (h : n.role = .block) :
    renderBlock bold width n = frameLines n.style (n.style.text.bold.getD bold) width
      (renderBlocks (n.style.text.bold.getD bold) width n.children) := by
  have hkind := Node.isContainer_of_role (Or.inr h)
  obtain ⟨kind, props, style, children⟩ := n
  have hrow : ¬style.view.isRow = true := by
    cases kind <;> simp_all [Node.role, Node.roleOf, NodeKind.isContainer]
  unfold renderBlock
  cases kind with
  | document | page | view => exact if_neg hrow
  | _ => simp [NodeKind.isContainer] at hkind

theorem renderBlock_eq_nil_of_role (h : n.role = .skip ∨ n.role = .image) :
    renderBlock bold width n = [] := by
  obtain ⟨kind, props, style, children⟩ := n
  unfold renderBlock
  cases kind with
  | image => rfl
  | other tag => rfl
  | text => simp [Node.role, Node.roleOf] at h
  | textNode => simp [Node.role, Node.roleOf] at h
  | document | page | view =>
      simp only [Node.role, Node.roleOf] at h
      split at h <;> simp at h

end

/-! ### Width -/

/-- No line is wider than `width`. -/
def FitIn (width : Nat) (ls : List Line) : Prop :=
  ∀ l ∈ ls, l.chars.length ≤ width

theorem FitIn.append {width : Nat} {ls ms : List Line} (h : FitIn width ls)
    (h' : FitIn width ms) : FitIn width (ls ++ ms) :=
  fun l hl => (List.mem_append.mp hl).elim (h l) (h' l)

theorem fitIn_replicate (width n : Nat) : FitIn width (List.replicate n []) := by
  intro l hl
  rw [List.eq_of_mem_replicate hl]
  exact Nat.zero_le width

theorem fitIn_borderLines (style : Style) (key : String) (bold : Bool) (width : Nat) :
    FitIn width (borderLines style key bold width) := by
  intro l hl
  unfold borderLines at hl
  split at hl
  · obtain rfl := List.mem_singleton.mp hl
    rw [Line.chars_singleton, String.length_toList, Rule.length_line]
  · simp at hl

theorem fitIn_frameLines (style : Style) (bold : Bool) {width : Nat} {content : List Line}
    (h : FitIn width content) : FitIn width (frameLines style bold width content) :=
  ((((fitIn_replicate width _).append (fitIn_borderLines style _ bold width)).append h).append
    (fitIn_borderLines style _ bold width)).append (fitIn_replicate width _)

theorem fitIn_textLines (text : String) (bold : Bool) {width : Nat} (hwidth : 0 < width) :
    FitIn width (textLines text bold width) := by
  intro l hl
  unfold textLines at hl
  split at hl
  · simp at hl
  · obtain ⟨line, hline, rfl⟩ := List.mem_map.mp hl
    rw [Line.chars_singleton]
    exact Text.length_le_of_mem_wrap hwidth hline

mutual

/-- **Rendered at a width, no line is wider.** -/
theorem fitIn_renderBlock (bold : Bool) {width : Nat} (hwidth : 0 < width) :
    ∀ n : Node, FitIn width (renderBlock bold width n)
  | ⟨kind, props, style, children⟩ => by
      have hblocks := fitIn_renderBlocks (style.text.bold.getD bold) hwidth children
      cases hrole : (Node.mk kind props style children).role with
      | skip | image =>
          rw [renderBlock_eq_nil_of_role bold width (by simp [hrole])]
          exact fun l hl => by simp at hl
      | text =>
          rw [renderBlock_text bold width hrole]
          exact fitIn_frameLines _ _ (fitIn_textLines _ _ hwidth)
      | row =>
          rw [renderBlock_row bold width hrole]
          exact fitIn_frameLines _ _ fun _ hl => Node.length_of_mem_compose hl
      | block =>
          rw [renderBlock_block bold width hrole]
          exact fitIn_frameLines _ _ hblocks

theorem fitIn_renderBlocks (bold : Bool) {width : Nat} (hwidth : 0 < width) :
    ∀ ns : List Node, FitIn width (renderBlocks bold width ns)
  | [] => fun l hl => by simp [renderBlocks] at hl
  | n :: rest => by
      rw [renderBlocks]
      exact (fitIn_renderBlock bold hwidth n).append (fitIn_renderBlocks bold hwidth rest)

end

/-- The lines of a column with a width fit in it. -/
theorem fitIn_renderColumns {bold : Bool} {plan : ColumnPlan} {ns : List Node} {c : Column}
    (hc : c ∈ renderColumns bold plan ns) (hwidth : 0 < c.width) : FitIn c.width c.lines := by
  induction ns generalizing plan with
  | nil => simp [renderColumns] at hc
  | cons n rest ih =>
      rw [renderColumns] at hc
      split at hc
      · rcases List.mem_cons.mp hc with rfl | hc
        · exact fitIn_renderBlock bold hwidth n
        · exact ih hc
      · exact ih hc

end Receipt
