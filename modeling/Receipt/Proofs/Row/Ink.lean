/-
Rows lose no text as long as every column has room.

Rendering a node renders nodes below it, each at a width of its own.  `Node.placed` lists
them, and `Placed.texts` and `Placed.borders` what each of them has to write itself.  What
of that is not blank is all there on the lines, and nothing else is.

Wrapping keeps it, framing adds the borders and padding only spaces.  Composing could lose
some of it, where it cuts a cell to its column; but a line that is rendered at a width
is no longer than that, so in columns with a width there is nothing to cut.  The lines of a
row mix the columns, so characters are counted: those of a row are those of its columns
together, line by line and then column by column.
-/
import Mathlib.Algebra.BigOperators.Group.List.Basic
import Receipt.Proofs.Row.Compose
import Receipt.Proofs.Row.Fit

namespace Receipt

/-! ### What is rendered -/

/-- A node that is rendered, with the emphasis it inherits and the width it is given. -/
structure Placed where
  node : Node
  bold : Bool
  width : Nat

mutual

/-- The nodes that rendering a node renders, itself the first. -/
def Node.placed (bold : Bool) (width : Nat) : Node → List Placed
  | ⟨kind, props, style, children⟩ =>
    let n := Node.mk kind props style children
    match Node.roleOf kind style with
    | .skip | .image => []
    | .text => [⟨n, bold, width⟩]
    | .row =>
      ⟨n, bold, width⟩ ::
        placedInColumns (style.text.bold.getD bold) (.ofRow style children width) children
    | .block => ⟨n, bold, width⟩ :: placedInBlock (style.text.bold.getD bold) width children

def placedInBlock (bold : Bool) (width : Nat) : List Node → List Placed
  | [] => []
  | n :: rest => n.placed bold width ++ placedInBlock bold width rest

/-- Each child that takes a column is given the width of its column. -/
def placedInColumns (bold : Bool) (plan : ColumnPlan) : List Node → List Placed
  | [] => []
  | n :: rest =>
    if n.takesColumn then
      n.placed bold (plan.widths.headD 0) ++ placedInColumns bold plan.advance rest
    else placedInColumns bold plan rest

end

namespace Placed

/-- The emphasis of the node itself. -/
def emphasis (p : Placed) : Bool :=
  p.node.style.text.bold.getD p.bold

/-- The columns of a row. -/
def columns (p : Placed) : List Column :=
  if p.node.role = .row then p.node.columns p.emphasis p.width else []

/-- The text of a text. -/
def texts (p : Placed) : List String :=
  if p.node.kind.isText then [p.node.textContent] else []

/-- The line of a border, if there is one, as long as the node is wide. -/
def border (p : Placed) (key : String) : List String :=
  (p.node.style.border? key).toList.map fun rule => rule.line p.width

def borders (p : Placed) : List String :=
  p.border "borderTop" ++ p.border "borderBottom"

end Placed

/-! ### Counting -/

/-- How often a character stands on the lines. -/
def countIn (c : Char) (ls : List Line) : Nat :=
  (ls.flatMap Line.chars).count c

theorem countIn_append (c : Char) (ls ms : List Line) :
    countIn c (ls ++ ms) = countIn c ls + countIn c ms := by
  unfold countIn
  rw [List.flatMap_append, List.count_append]

theorem countIn_replicate (c : Char) (n : Nat) : countIn c (List.replicate n []) = 0 := by
  unfold countIn
  rw [List.flatMap_replicate]
  simp

/-- How often a character stands in texts. -/
def countWritten (c : Char) (ss : List String) : Nat :=
  (ss.flatMap String.toList).count c

theorem countWritten_append (c : Char) (ss ts : List String) :
    countWritten c (ss ++ ts) = countWritten c ss + countWritten c ts := by
  unfold countWritten
  rw [List.flatMap_append, List.count_append]

theorem countIn_borderLines (c : Char) (p : Placed) (key : String) (bold : Bool) :
    countIn c (borderLines p.node.style key bold p.width) = countWritten c (p.border key) := by
  unfold borderLines Placed.border countIn countWritten
  cases p.node.style.border? key with
  | none => rfl
  | some rule => simp [Line.chars_singleton]

/-- Framing adds the borders. -/
theorem countIn_frameLines (c : Char) (p : Placed) (bold : Bool) (content : List Line) :
    countIn c (frameLines p.node.style bold p.width content)
      = countIn c content + countWritten c p.borders := by
  unfold frameLines Placed.borders
  simp only [countIn_append, countIn_replicate, countIn_borderLines, countWritten_append]
  omega

/-- **Wrapped text has every character of the text that is not blank.** -/
theorem countIn_textLines {c : Char} (hc : Text.isBlank c = false) (text : String) (bold : Bool)
    (width : Nat) : countIn c (textLines text bold width) = text.toList.count c := by
  unfold textLines
  split
  · rename_i hempty
    rw [String.isEmpty_iff.mp hempty]
    rfl
  · have hlines : ((Text.wrap text width).map fun line => [⟨line, bold⟩]).flatMap Line.chars
        = (Text.wrapChars width text.toList).flatten := by
      unfold Text.wrap
      rw [List.map_map, List.flatMap_map, List.flatMap_def]
      refine congrArg List.flatten ((List.map_congr_left fun cs _ => ?_).trans (List.map_id _))
      exact (Line.chars_singleton _).trans String.toList_ofList
    unfold countIn
    rw [hlines, ← Text.count_ink hc, Text.ink_flatten, Text.ink_wrapChars, Text.count_ink hc]

/-! ### Counting in rows -/

section

variable {c : Char} (hc : Text.isBlank c = false)

include hc

theorem ne_space_of_not_blank : (c != ' ') = true := by
  rw [bne_iff_ne]
  rintro rfl
  exact absurd hc (by decide)

theorem count_alignIn (s : String) (width : Nat) (align : Alignment) :
    (Text.alignIn s width align).toList.count c = (s.toList.take width).count c := by
  have hspaces : ∀ n, (List.replicate n ' ').count c = 0 := fun n =>
    List.count_eq_zero.mpr fun hmem =>
      (bne_iff_ne.mp (ne_space_of_not_blank hc)) (List.eq_of_mem_replicate hmem)
  unfold Text.alignIn
  simp only [String.toList_append, List.count_append, Text.toList_spaces, Text.toList_firstChars,
    hspaces, Nat.zero_add, Nat.add_zero]

/-- On a composed line stands what is on the lines of the columns, if they fit. -/
theorem count_composeLine {columns : List Column}
    (hfit : ∀ column ∈ columns, FitIn column.width column.lines) (i : Nat) :
    (Column.composeLine columns i).chars.count c
      = (columns.map fun column => (column.lines.getD i []).chars.count c).sum := by
  have hink : ∀ cs : List Char, (cs.filter fun d => d != ' ').count c = cs.count c := fun cs =>
    List.count_filter (p := fun d => d != ' ') (ne_space_of_not_blank hc)
  rw [Column.chars_composeLine, ← hink, Line.filter_rdropWhile_space, hink, List.count_flatMap]
  refine congrArg List.sum (List.map_congr_left fun column hcolumn => ?_)
  have hcell : (column.lines.getD i []).chars.take column.width
      = (column.lines.getD i []).chars := by
    refine List.take_of_length_le ?_
    rw [List.getD_eq_getElem?_getD]
    cases hline : column.lines[i]? with
    | none => exact Nat.zero_le _
    | some l => exact hfit column hcolumn l (List.mem_of_getElem? hline)
  show (column.cellText i).toList.count c = _
  rw [Column.cellText, count_alignIn hc, Line.toList_text, hcell]

end

/-- Lines that are not there hold nothing. -/
theorem sum_count_getD (c : Char) {ls : List Line} {height : Nat} (h : ls.length ≤ height) :
    ((List.range height).map fun i => (ls.getD i []).chars.count c).sum = countIn c ls := by
  have hlines : (List.range height).map (fun i => ls.getD i [])
      = ls ++ List.replicate (height - ls.length) [] := by
    refine List.ext_getElem (by simp; omega) fun i hi _ => ?_
    rw [List.getElem_map, List.getElem_range, List.getElem_append, List.getD_eq_getElem?_getD]
    split
    · rename_i hlt
      rw [List.getElem?_eq_getElem hlt]
      rfl
    · rename_i hge
      rw [List.getElem?_eq_none (by omega), List.getElem_replicate]
      rfl
  calc ((List.range height).map fun i => (ls.getD i []).chars.count c).sum
      = countIn c ((List.range height).map fun i => ls.getD i []) := by
        unfold countIn
        rw [List.count_flatMap, List.map_map]
        rfl
    _ = countIn c ls := by rw [hlines, countIn_append, countIn_replicate, Nat.add_zero]

theorem length_le_height {columns : List Column} {column : Column} (h : column ∈ columns) :
    column.lines.length ≤ Column.height columns := by
  rw [Column.height_eq]
  induction columns with
  | nil => simp at h
  | cons first rest ih =>
      rw [List.map_cons, List.foldr_cons]
      rcases List.mem_cons.mp h with rfl | h
      · exact Nat.le_max_left _ _
      · exact (ih h).trans (Nat.le_max_right _ _)

/-- Counted line by line and then column by column, or the other way round. -/
theorem sum_lines_columns (c : Char) {columns : List Column} {height : Nat}
    (h : ∀ column ∈ columns, column.lines.length ≤ height) :
    ((List.range height).map fun i =>
        (columns.map fun column => (column.lines.getD i []).chars.count c).sum).sum
      = (columns.map fun column => countIn c column.lines).sum := by
  induction columns with
  | nil => simp
  | cons column rest ih =>
      have hrest : ∀ d ∈ rest, d.lines.length ≤ height := fun d hd =>
        h d (List.mem_cons_of_mem column hd)
      simp only [List.map_cons, List.sum_cons, List.sum_map_add]
      rw [sum_count_getD c (h column List.mem_cons_self), ih hrest]

/-- **Composing columns with room for their lines keeps every character that is not
blank.** -/
theorem countIn_compose {c : Char} (hc : Text.isBlank c = false) {columns : List Column}
    (hfit : ∀ column ∈ columns, FitIn column.width column.lines) :
    countIn c (Column.compose columns)
      = (columns.map fun column => countIn c column.lines).sum := by
  calc countIn c (Column.compose columns)
      = ((List.range (Column.height columns)).map fun i =>
          (Column.composeLine columns i).chars.count c).sum := by
        unfold countIn Column.compose
        rw [List.count_flatMap, List.map_map]
        rfl
    _ = ((List.range (Column.height columns)).map fun i =>
          (columns.map fun column => (column.lines.getD i []).chars.count c).sum).sum := by
        simp only [count_composeLine hc hfit]
    _ = (columns.map fun column => countIn c column.lines).sum :=
        sum_lines_columns c fun _ hcolumn => length_le_height hcolumn

/-! ### Counting in blocks -/

/-- How often a character stands in what is to be written. -/
def countPlaced (c : Char) (ps : List Placed) : Nat :=
  countWritten c (ps.flatMap Placed.texts) + countWritten c (ps.flatMap Placed.borders)

theorem countPlaced_append (c : Char) (ps qs : List Placed) :
    countPlaced c (ps ++ qs) = countPlaced c ps + countPlaced c qs := by
  unfold countPlaced
  simp only [List.flatMap_append, countWritten_append]
  omega

theorem countPlaced_cons (c : Char) (p : Placed) (ps : List Placed) :
    countPlaced c (p :: ps)
      = countWritten c p.texts + countWritten c p.borders + countPlaced c ps := by
  unfold countPlaced
  simp only [List.flatMap_cons, countWritten_append]
  omega

namespace Placed

theorem countWritten_texts (c : Char) (p : Placed) (h : p.node.role = .text) :
    countWritten c p.texts = p.node.textContent.toList.count c := by
  unfold texts countWritten
  rw [if_pos (Node.isText_of_role h), List.flatMap_singleton]

theorem countWritten_texts_eq_zero (c : Char) (p : Placed)
    (h : p.node.role = .row ∨ p.node.role = .block) : countWritten c p.texts = 0 := by
  have hkind := Node.isContainer_of_role h
  have hnot : ¬p.node.kind.isText = true := by
    cases hk : p.node.kind <;> simp_all [NodeKind.isContainer, NodeKind.isText]
  unfold texts
  rw [if_neg hnot]
  rfl

/-- A column has the lines of a node rendered at its width. -/
theorem fitIn_columns {p : Placed} {column : Column} (h : column ∈ p.columns)
    (hwidth : 1 ≤ column.width) : FitIn column.width column.lines := by
  unfold columns at h
  split at h
  · exact fitIn_renderColumns h hwidth
  · simp at h

end Placed

/-- All columns of the rows among the nodes have a width. -/
def Roomy (ps : List Placed) : Prop :=
  ∀ p ∈ ps, ∀ column ∈ p.columns, 1 ≤ column.width

theorem Roomy.left {ps qs : List Placed} (h : Roomy (ps ++ qs)) : Roomy ps :=
  fun p hp => h p (List.mem_append_left qs hp)

theorem Roomy.right {ps qs : List Placed} (h : Roomy (ps ++ qs)) : Roomy qs :=
  fun p hp => h p (List.mem_append_right ps hp)

theorem Roomy.tail {p : Placed} {ps : List Placed} (h : Roomy (p :: ps)) : Roomy ps :=
  fun q hq => h q (List.mem_cons_of_mem p hq)

section

variable {c : Char} (hc : Text.isBlank c = false) (bold : Bool) (width : Nat) {n : Node}

include hc

theorem countIn_text (h : n.role = .text) :
    countIn c (renderBlock bold width n) = countPlaced c [⟨n, bold, width⟩] := by
  have hframe := countIn_frameLines c ⟨n, bold, width⟩ (n.style.text.bold.getD bold)
  rw [renderBlock_text bold width h, hframe, countIn_textLines hc, countPlaced_cons,
    Placed.countWritten_texts c ⟨n, bold, width⟩ h]
  rfl

/-- A row has what it writes itself and what is written in its columns. -/
theorem countIn_row (h : n.role = .row)
    (hroom : ∀ column ∈ Placed.columns ⟨n, bold, width⟩, 1 ≤ column.width) {below : List Placed}
    (hbelow : ((Placed.columns ⟨n, bold, width⟩).map fun column => countIn c column.lines).sum
      = countPlaced c below) :
    countIn c (renderBlock bold width n) = countPlaced c (⟨n, bold, width⟩ :: below) := by
  have hframe := countIn_frameLines c ⟨n, bold, width⟩ (n.style.text.bold.getD bold)
  have hcolumns : Placed.columns ⟨n, bold, width⟩
      = n.columns (n.style.text.bold.getD bold) width := if_pos h
  have hfit : ∀ column ∈ Placed.columns ⟨n, bold, width⟩, FitIn column.width column.lines :=
    fun column hcolumn => Placed.fitIn_columns hcolumn (hroom column hcolumn)
  rw [renderBlock_row bold width h, hframe, ← hcolumns, countIn_compose hc hfit, hbelow,
    countPlaced_cons, Placed.countWritten_texts_eq_zero c ⟨n, bold, width⟩ (Or.inl h),
    Nat.zero_add]
  exact Nat.add_comm _ _

omit hc in
theorem countIn_block (h : n.role = .block) {below : List Placed}
    (hbelow : countIn c (renderBlocks (n.style.text.bold.getD bold) width n.children)
      = countPlaced c below) :
    countIn c (renderBlock bold width n) = countPlaced c (⟨n, bold, width⟩ :: below) := by
  have hframe := countIn_frameLines c ⟨n, bold, width⟩ (n.style.text.bold.getD bold)
  rw [renderBlock_block bold width h, hframe, hbelow, countPlaced_cons,
    Placed.countWritten_texts_eq_zero c ⟨n, bold, width⟩ (Or.inr h), Nat.zero_add]
  exact Nat.add_comm _ _

end

mutual

/-- **The lines of a node have what it and those below it have to write.** -/
theorem countIn_renderBlock {c : Char} (hc : Text.isBlank c = false) (bold : Bool)
    (width : Nat) : ∀ n : Node, Roomy (n.placed bold width) →
      countIn c (renderBlock bold width n) = countPlaced c (n.placed bold width)
  | ⟨kind, props, style, children⟩, hroom => by
      have hblock := countIn_renderBlocks hc (style.text.bold.getD bold) width children
      have hcolumns := countIn_renderColumns hc (style.text.bold.getD bold)
        (.ofRow style children width) children
      unfold Node.placed at hroom ⊢
      cases hrole : Node.roleOf kind style with
      | skip | image =>
          rw [renderBlock_eq_nil_of_role bold width (by simp [Node.role, hrole])]
          rfl
      | text => exact countIn_text hc bold width (n := ⟨kind, props, style, children⟩) hrole
      | row =>
          rw [hrole] at hroom
          have hself : Placed.columns ⟨⟨kind, props, style, children⟩, bold, width⟩
              = renderColumns (style.text.bold.getD bold) (.ofRow style children width)
                children := if_pos hrole
          refine countIn_row hc bold width (n := ⟨kind, props, style, children⟩) hrole
            (hroom _ List.mem_cons_self) ?_
          rw [hself]
          exact hcolumns hroom.tail
      | block =>
          rw [hrole] at hroom
          exact countIn_block bold width (n := ⟨kind, props, style, children⟩) hrole
            (hblock hroom.tail)

theorem countIn_renderBlocks {c : Char} (hc : Text.isBlank c = false) (bold : Bool)
    (width : Nat) : ∀ ns : List Node, Roomy (placedInBlock bold width ns) →
      countIn c (renderBlocks bold width ns) = countPlaced c (placedInBlock bold width ns)
  | [], _ => by
      rw [renderBlocks, placedInBlock]
      rfl
  | n :: rest, hroom => by
      rw [placedInBlock] at hroom ⊢
      rw [renderBlocks, countIn_append, countPlaced_append,
        countIn_renderBlock hc bold width n hroom.left,
        countIn_renderBlocks hc bold width rest hroom.right]

theorem countIn_renderColumns {c : Char} (hc : Text.isBlank c = false) (bold : Bool)
    (plan : ColumnPlan) : ∀ ns : List Node, Roomy (placedInColumns bold plan ns) →
      ((renderColumns bold plan ns).map fun column => countIn c column.lines).sum
        = countPlaced c (placedInColumns bold plan ns)
  | [], _ => by
      rw [renderColumns, placedInColumns]
      rfl
  | n :: rest, hroom => by
      rw [placedInColumns] at hroom ⊢
      rw [renderColumns]
      split
      · rename_i hcolumn
        rw [if_pos hcolumn] at hroom
        rw [List.map_cons, List.sum_cons, countPlaced_append,
          countIn_renderBlock hc bold _ n hroom.left,
          countIn_renderColumns hc bold plan.advance rest hroom.right]
      · rename_i hcolumn
        rw [if_neg hcolumn] at hroom
        exact countIn_renderColumns hc bold plan rest hroom

end

/-! ### Rows with room -/

/-- **Rows lose no text as long as every column has room.**  If all columns in a node, at
every depth, are at least one character wide, then its lines keep to the width it is given
and the cells of those columns to theirs, so that cutting them cuts nothing off.  And on
the lines of the node stands every character that is not blank as often as in the texts
that are rendered and in their borders and those of the containers around them. -/
theorem renderBlock_keeps_text (n : Node) (bold : Bool) {width : Nat} (hwidth : 1 ≤ width)
    (hroom : ∀ p ∈ n.placed bold width, ∀ column ∈ p.columns, 1 ≤ column.width) :
    (∀ l ∈ renderBlock bold width n, l.width ≤ width) ∧
    (∀ p ∈ n.placed bold width, ∀ column ∈ p.columns, ∀ l ∈ column.lines,
      (l.truncate column.width).marks = l.marks) ∧
    ∀ c, Text.isBlank c = false →
      ((renderBlock bold width n).flatMap Line.chars).count c
        = (((n.placed bold width).flatMap Placed.texts).flatMap String.toList).count c
          + (((n.placed bold width).flatMap Placed.borders).flatMap String.toList).count c := by
  refine ⟨fun l hl => ?_, fun p hp column hcolumn l hl => ?_, fun c hc => ?_⟩
  · rw [Line.width_eq]
    exact fitIn_renderBlock bold hwidth n l hl
  · have hfit := Placed.fitIn_columns hcolumn (hroom p hp column hcolumn) l hl
    rw [Line.marks_truncate, List.take_of_length_le]
    rwa [Line.length_marks]
  · exact countIn_renderBlock hc bold width n hroom

/-- A row with a border and two columns. -/
def priced : Node :=
  (Node.view [Node.ofText "Tea", Node.ofText "2.50"]).withStyle
    (Dict.ofList [("borderTop", .string "1px dashed"), ("flexDirection", .string "row")])

/-- The border is there in full, and nothing else on the lines looks like it. -/
theorem renderBlock_keeps_text_priced :
    (1 ≤ 8 ∧ ∀ p ∈ priced.placed false 8, ∀ column ∈ p.columns, 1 ≤ column.width) ∧
    ((renderBlock false 8 priced).flatMap Line.chars).count '-' = 8 := by
  have hroom : ∀ p ∈ priced.placed false 8, ∀ column ∈ p.columns, 1 ≤ column.width := by
    decide
  obtain ⟨-, -, hcount⟩ := renderBlock_keeps_text priced false (by decide) hroom
  refine ⟨⟨by decide, hroom⟩, (hcount '-' (by decide)).trans ?_⟩
  decide

end Receipt
