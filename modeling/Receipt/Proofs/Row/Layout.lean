/-
The lines of a row fit the width that the row is given.

Columns share the width and no more: what is granted and what is left make the whole,
and only what is left is shared among the columns that ask for nothing.  A composed
line is as wide as its columns at most, so nothing has to be known of what is in them.

What is in them matters for the characters.  Layout writes three of its own, and the
others come out of wrapping the texts.  A column without any width may hold line breaks,
since nothing is wrapped there, but then the line has no room for them either.  So
rendered lines are known where there is a width, composed ones always, and the two facts
carry each other down through rows in columns of rows.
-/
import Receipt.Proofs.Document.Texts
import Receipt.Proofs.Row.Line
import Receipt.Proofs.Text.Wrap
import Receipt.Row.Layout

namespace Receipt

/-! ### Widths -/

/-- What columns ask for, taken together. -/
def askedWidth (widths : List (Option Nat)) : Nat :=
  (widths.map fun w => w.getD 0).sum

/-- What is granted and what is left make the whole. -/
theorem askedWidth_grantWidths (available : Nat) (widths : List (Option Nat)) :
    askedWidth (grantWidths available widths).1 + (grantWidths available widths).2
      = available := by
  induction widths generalizing available with
  | nil => exact Nat.zero_add available
  | cons w rest ih =>
      cases w with
      | none =>
          have h := ih available
          simp only [grantWidths, askedWidth, List.map_cons, List.sum_cons, Option.getD_none]
          unfold askedWidth at h
          omega
      | some w =>
          have h := ih (available - min w available)
          simp only [grantWidths, askedWidth, List.map_cons, List.sum_cons, Option.getD_some]
          unfold askedWidth at h
          omega

/-- Columns that ask for nothing get a share each, and the last of them what is over. -/
theorem sum_shareWidths (share extra : Nat) (widths : List (Option Nat)) :
    (shareWidths share extra (autoCount widths) widths).sum
      = askedWidth widths + autoCount widths * share
        + if autoCount widths = 0 then 0 else extra := by
  induction widths with
  | nil => simp [shareWidths, autoCount, askedWidth]
  | cons w rest ih =>
      cases w with
      | some w =>
          have hcount : autoCount (some w :: rest) = autoCount rest := by simp [autoCount]
          have hasked : askedWidth (some w :: rest) = w + askedWidth rest := by simp [askedWidth]
          rw [hcount, hasked, shareWidths, List.sum_cons, ih]
          omega
      | none =>
          have hcount : autoCount (none :: rest) = autoCount rest + 1 := by simp [autoCount]
          have hasked : askedWidth (none :: rest) = askedWidth rest := by simp [askedWidth]
          have hmul : (autoCount rest + 1) * share = autoCount rest * share + share :=
            Nat.succ_mul _ _
          rw [hcount, hasked, shareWidths, List.sum_cons, Nat.add_sub_cancel, ih, hmul]
          by_cases hlast : autoCount rest = 0
          · rw [hlast]
            simp only [Nat.zero_add, if_true, Nat.one_ne_zero, if_false]
            omega
          · rw [if_neg (by omega), if_neg hlast, if_neg (by omega)]
            omega

/-- **Columns get no more width than there is.** -/
theorem sum_columnWidths_le (explicit : List (Option Nat)) (available : Nat) :
    (columnWidths explicit available).sum ≤ available := by
  have hgranted := askedWidth_grantWidths available explicit
  unfold columnWidths
  dsimp only
  rw [sum_shareWidths]
  generalize (grantWidths available explicit).2 = left at hgranted ⊢
  generalize autoCount (grantWidths available explicit).1 = autos
  have hshares := Nat.div_add_mod left autos
  by_cases hautos : autos = 0
  · rw [if_pos hautos, hautos]
    omega
  · rw [if_neg hautos]
    omega

theorem totalWidth_renderColumns (bold : Bool) (plan : ColumnPlan) (ns : List Node) :
    Column.totalWidth (renderColumns bold plan ns) ≤ plan.widths.sum := by
  induction ns generalizing plan with
  | nil =>
      rw [renderColumns]
      exact Nat.zero_le _
  | cons n rest ih =>
      rw [renderColumns]
      split
      · have hrest := ih plan.advance
        have hsplit : plan.widths.headD 0 + plan.advance.widths.sum = plan.widths.sum := by
          unfold ColumnPlan.advance
          cases plan.widths with
          | nil => rfl
          | cons w ws => rfl
        have htotal : Column.totalWidth (renderColumns bold plan.advance rest)
            + plan.widths.headD 0 ≤ plan.widths.sum := by omega
        rw [Nat.add_comm] at htotal
        exact htotal
      · exact ih plan

/-- **A line of a row is no wider than the row.** -/
theorem Node.length_of_mem_compose {n : Node} {bold : Bool} {available : Nat} {l : Line}
    (h : l ∈ Column.compose (n.columns bold available)) : l.chars.length ≤ available := by
  obtain ⟨i, -, rfl⟩ := List.mem_map.mp h
  calc (Column.composeLine (n.columns bold available) i).chars.length
      ≤ Column.totalWidth (n.columns bold available) := Column.length_composeLine _ i
    _ ≤ (ColumnPlan.ofRow n.style n.children available).widths.sum :=
        totalWidth_renderColumns bold _ n.children
    _ ≤ available := sum_columnWidths_le _ available

/-! ### Characters -/

/-- All characters on the lines have a property. -/
def LinesOf (P : Char → Prop) (ls : List Line) : Prop :=
  ∀ l ∈ ls, ∀ c ∈ l.chars, P c

/-- The characters that layout writes of its own have a property: the space, and those
that borders are drawn with. -/
structure Drawn (P : Char → Prop) : Prop where
  space : P ' '
  dashed : P '-'
  double : P '='

theorem drawn_clean : Drawn Text.Clean :=
  ⟨Text.clean_space, Or.inr rfl, Or.inr rfl⟩

theorem Rule.length_line (r : Rule) (width : Nat) : (r.line width).length = width := by
  unfold Rule.line
  rw [String.length_ofList, List.length_replicate]

section

variable {P : Char → Prop}

theorem LinesOf.append {ls ms : List Line} (h : LinesOf P ls) (h' : LinesOf P ms) :
    LinesOf P (ls ++ ms) := by
  intro l hl
  rcases List.mem_append.mp hl with hl | hl
  · exact h l hl
  · exact h' l hl

/-- A border is drawn with its own characters, as many as it is asked for. -/
theorem Rule.mem_line (hP : Drawn P) {r : Rule} {width : Nat} {c : Char}
    (h : c ∈ (r.line width).toList) : P c := by
  unfold Rule.line at h
  rw [String.toList_ofList] at h
  cases r with
  | dashed => rw [List.eq_of_mem_replicate h]; exact hP.dashed
  | double => rw [List.eq_of_mem_replicate h]; exact hP.double

theorem linesOf_replicate (n : Nat) : LinesOf P (List.replicate n []) := by
  intro l hl c hc
  rw [List.eq_of_mem_replicate hl] at hc
  simp at hc

theorem linesOf_borderLines (hP : Drawn P) (style : Style) (key : String) (bold : Bool)
    (width : Nat) : LinesOf P (borderLines style key bold width) := by
  intro l hl c hc
  unfold borderLines at hl
  split at hl
  · obtain rfl := List.mem_singleton.mp hl
    rw [Line.chars_singleton] at hc
    exact Rule.mem_line hP hc
  · simp at hl

theorem linesOf_frameLines (hP : Drawn P) {content : List Line} (h : LinesOf P content)
    (style : Style) (bold : Bool) (width : Nat) :
    LinesOf P (frameLines style bold width content) := by
  have htop := linesOf_borderLines hP style "borderTop" bold width
  have hbottom := linesOf_borderLines hP style "borderBottom" bold width
  exact ((((linesOf_replicate _).append htop).append h).append hbottom).append
    (linesOf_replicate _)

theorem linesOf_textLines (text : String) (width : Nat)
    (h : ∀ line ∈ Text.wrap text width, ∀ c ∈ line.toList, P c) (bold : Bool) :
    LinesOf P (textLines text bold width) := by
  intro l hl c hc
  unfold textLines at hl
  split at hl
  · simp at hl
  · obtain ⟨line, hline, rfl⟩ := List.mem_map.mp hl
    rw [Line.chars_singleton] at hc
    exact h line hline c hc

/-- **Composed lines hold spaces and what is in the columns**: a column without any width,
whatever is in it, has no room on them. -/
theorem linesOf_compose (hspace : P ' ') {columns : List Column}
    (h : ∀ column ∈ columns, 0 < column.width → LinesOf P column.lines) :
    LinesOf P (Column.compose columns) := by
  intro l hl c hc
  obtain ⟨i, -, rfl⟩ := List.mem_map.mp hl
  rcases Column.mem_composeLine hc with rfl | ⟨column, hcolumn, hcell⟩
  · exact hspace
  · by_cases hwidth : column.width = 0
    · simp [hwidth] at hcell
    · have hlines := h column hcolumn (Nat.pos_of_ne_zero hwidth)
      have hchars := List.mem_of_mem_take hcell
      rw [List.getD_eq_getElem?_getD] at hchars
      cases hget : column.lines[i]? with
      | none => simp [hget] at hchars
      | some m =>
          rw [hget] at hchars
          exact hlines m (List.mem_of_getElem? hget) c hchars

end

/-- Wrapping texts of characters with one property makes lines of characters with another. -/
def WrapsTo (Q P : Char → Prop) : Prop :=
  ∀ (s line : String) (width : Nat), 0 < width → (∀ c ∈ s.toList, Q c) →
    line ∈ Text.wrap s width → ∀ c ∈ line.toList, P c

section

variable {P Q : Char → Prop}

mutual

/-- **Rendered at any width at all, a node has lines of what wrapping makes of its texts.** -/
theorem linesOf_renderBlock (hP : Drawn P) (hwrap : WrapsTo Q P) (bold : Bool) {width : Nat}
    (hwidth : 0 < width) :
    ∀ n : Node, TextsIn Q n.texts → LinesOf P (renderBlock bold width n)
  | ⟨kind, props, style, children⟩, htexts => by
      have hbelow := Node.textsIn_children htexts
      have hrow := linesOf_compose hP.space (linesOf_renderColumns hP hwrap
        (style.text.bold.getD bold) (.ofRow style children width) children hbelow)
      have hblock := linesOf_renderBlocks hP hwrap (style.text.bold.getD bold) hwidth children
        hbelow
      have htext := fun hkind =>
        linesOf_textLines (Node.mk kind props style children).textContent width
          (fun line hline =>
            hwrap _ line width hwidth (Node.forall_mem_textContent _ hkind htexts) hline)
          (style.text.bold.getD bold)
      unfold renderBlock
      cases kind with
      | image => simp [LinesOf]
      | other tag => simp [LinesOf]
      | text => exact linesOf_frameLines hP (htext rfl) _ _ _
      | textNode => exact linesOf_frameLines hP (htext rfl) _ _ _
      | document | page | view =>
          dsimp only
          split
          · exact linesOf_frameLines hP hrow _ _ _
          · exact linesOf_frameLines hP hblock _ _ _

theorem linesOf_renderBlocks (hP : Drawn P) (hwrap : WrapsTo Q P) (bold : Bool) {width : Nat}
    (hwidth : 0 < width) :
    ∀ ns : List Node, TextsIn Q (textsOf ns) → LinesOf P (renderBlocks bold width ns)
  | [], _ => by
      rw [renderBlocks]
      simp [LinesOf]
  | n :: rest, htexts => by
      obtain ⟨hn, hrest⟩ := textsIn_cons htexts
      rw [renderBlocks]
      exact (linesOf_renderBlock hP hwrap bold hwidth n hn).append
        (linesOf_renderBlocks hP hwrap bold hwidth rest hrest)

theorem linesOf_renderColumns (hP : Drawn P) (hwrap : WrapsTo Q P) (bold : Bool)
    (plan : ColumnPlan) :
    ∀ ns : List Node, TextsIn Q (textsOf ns) →
      ∀ column ∈ renderColumns bold plan ns, 0 < column.width → LinesOf P column.lines
  | [], _, column, h => by simp [renderColumns] at h
  | n :: rest, htexts, column, h => by
      obtain ⟨hn, hrest⟩ := textsIn_cons htexts
      rw [renderColumns] at h
      split at h
      · rcases List.mem_cons.mp h with rfl | h
        · exact fun hwidth => linesOf_renderBlock hP hwrap bold hwidth n hn
        · exact linesOf_renderColumns hP hwrap bold plan.advance rest hrest column h
      · exact linesOf_renderColumns hP hwrap bold plan rest hrest column h

end

theorem Node.linesOf_compose_columns (hP : Drawn P) (hwrap : WrapsTo Q P) {n : Node}
    (htexts : TextsIn Q n.texts) (bold : Bool) (available : Nat) :
    LinesOf P (Column.compose (n.columns bold available)) :=
  linesOf_compose hP.space
    (linesOf_renderColumns hP hwrap bold _ n.children (Node.textsIn_children htexts))

end

/-- No blank but the space stands on the lines. -/
def CleanLines (ls : List Line) : Prop :=
  ∀ l ∈ ls, ∀ c ∈ l.chars, Text.Clean c

/-- **Composing leaves nothing but clean lines**, whatever the texts hold. -/
theorem Node.cleanLines_compose_columns (n : Node) (bold : Bool) (available : Nat) :
    CleanLines (Column.compose (n.columns bold available)) :=
  linesOf_compose_columns (Q := fun _ => True) drawn_clean
    (fun _ _ _ hwidth _ hline _ hc => Text.clean_of_mem_wrap hwidth hline hc)
    (fun _ _ _ _ => trivial) bold available

end Receipt
