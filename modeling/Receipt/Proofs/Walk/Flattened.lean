/-
A text is the same characters on a line of its own and in a column.

The walk collects the runs of a text with their formatting, and a column wraps the text as
a whole.  They go down the tree separately, and both stop at a node that has texts in its
properties.  `Node.textPaths` lists the ways down from a text through the texts inside it.
A node counts if it has texts and no node above it has any, which `IsOutermost` says of its
path alone.  The texts of these nodes in order are the text as a whole and the texts of the
runs, by one induction each.

An empty text in the properties is a text and ends the way down; an empty list is none.  So
there may be runs and no characters, and then neither a line nor a column has anything.
-/
import Receipt.Proofs.Row.Fit
import Receipt.Proofs.Walk.Does

namespace Receipt

/-! ### Leaves of values -/

mutual

/-- The texts and the numbers of a value in order, those in lists of lists as well. -/
def Json.leaves : Json → List String
  | .string s => [s]
  | .number n => [n.text]
  | .array items => leavesOf items
  | .null | .bool _ | .object _ => []

def leavesOf : List Json → List String
  | [] => []
  | item :: rest => item.leaves ++ leavesOf rest

end

/-- The leaves put one after the other, unless there are none. -/
def joinLeaves? (leaves : List String) : Option String :=
  if leaves.isEmpty then none else some (String.join leaves)

theorem joinLeaves?_nil : joinLeaves? [] = none := rfl

theorem joinLeaves?_of_ne_nil {leaves : List String} (h : leaves ≠ []) :
    joinLeaves? leaves = some (String.join leaves) := by
  unfold joinLeaves?
  rw [if_neg (by simpa using h)]

mutual

/-- **A value spells its leaves.** -/
theorem Json.literal?_eq_leaves : ∀ v : Json, v.literal? = joinLeaves? v.leaves
  | .string s => by simp [Json.literal?, Json.leaves, joinLeaves?]
  | .number n => by simp [Json.literal?, Json.leaves, joinLeaves?]
  | .array items => by
      rw [Json.literal?, Json.leaves]
      exact literals?_eq_leaves items
  | .null | .bool _ | .object _ => by simp [Json.literal?, Json.leaves, joinLeaves?]

theorem literals?_eq_leaves : ∀ vs : List Json, literals? vs = joinLeaves? (leavesOf vs)
  | [] => by simp [literals?, leavesOf, joinLeaves?]
  | item :: rest => by
      rw [literals?, Json.literal?_eq_leaves item, literals?_eq_leaves rest, leavesOf]
      by_cases hitem : item.leaves = []
      · rw [hitem, List.nil_append, joinLeaves?_nil]
      · by_cases hrest : leavesOf rest = []
        · rw [hrest, List.append_nil, joinLeaves?_of_ne_nil hitem, joinLeaves?_nil]
        · have hboth : item.leaves ++ leavesOf rest ≠ [] := by simp [hitem]
          rw [joinLeaves?_of_ne_nil hitem, joinLeaves?_of_ne_nil hrest,
            joinLeaves?_of_ne_nil hboth, String.join_append]

end

namespace Node

/-- The leaves of a property. -/
def leavesAt (n : Node) (key : String) : List String :=
  ((n.props.get? key).map Json.leaves).getD []

/-- The texts that a node has in its own properties. -/
def literals (n : Node) : List String :=
  match n.kind with
  | .textNode =>
    if (n.leavesAt "text").isEmpty then n.leavesAt "children" else n.leavesAt "text"
  | _ => n.leavesAt "children"

theorem literal?_at (n : Node) (key : String) :
    (n.props.get? key).bind Json.literal? = joinLeaves? (n.leavesAt key) := by
  unfold leavesAt
  cases n.props.get? key with
  | none => rfl
  | some v => exact Json.literal?_eq_leaves v

theorem ownText?_eq_literals (n : Node) : n.ownText? = joinLeaves? n.literals := by
  unfold ownText? literals
  rw [literal?_at, literal?_at]
  cases n.kind with
  | textNode =>
      dsimp only
      by_cases htext : n.leavesAt "text" = []
      · rw [htext]
        rfl
      · rw [joinLeaves?_of_ne_nil htext, if_neg (by simpa using htext),
          joinLeaves?_of_ne_nil htext]
        rfl
  | _ => rfl

end Node

/-! ### Ways down a text -/

/-- A node inside a text, and the nodes above it from the outermost one on. -/
structure TextPath where
  above : List Node
  node : Node

namespace TextPath

/-- The same way from one node higher. -/
def below (n : Node) (p : TextPath) : TextPath :=
  { p with above := n :: p.above }

/-- The node has texts of its own, and no node above it has any. -/
def IsOutermost (p : TextPath) : Prop :=
  p.node.literals ≠ [] ∧ ∀ m ∈ p.above, m.literals = []

instance : DecidablePred IsOutermost :=
  fun _ => inferInstanceAs (Decidable (_ ∧ _))

theorem isOutermost_below {n : Node} {p : TextPath} :
    (p.below n).IsOutermost ↔ n.literals = [] ∧ p.IsOutermost := by
  unfold IsOutermost below
  simp only [List.mem_cons, forall_eq_or_imp]
  exact and_left_comm

end TextPath

mutual

/-- The ways down from a node through nodes that hold text, in reading order. -/
def Node.textPaths : Node → List TextPath
  | ⟨kind, props, style, children⟩ =>
    let n := Node.mk kind props style children
    ⟨[], n⟩ :: (textPathsOf children).map (TextPath.below n)

def textPathsOf : List Node → List TextPath
  | [] => []
  | n :: rest => if n.kind.isText then n.textPaths ++ textPathsOf rest else textPathsOf rest

end

/-- The texts of the outermost nodes that have any. -/
def outermostLiterals (ps : List TextPath) : List String :=
  (ps.filter (·.IsOutermost)).flatMap fun p => p.node.literals

theorem outermostLiterals_append (ps qs : List TextPath) :
    outermostLiterals (ps ++ qs) = outermostLiterals ps ++ outermostLiterals qs := by
  unfold outermostLiterals
  rw [List.filter_append, List.flatMap_append]

/-- Below a node with texts of its own nothing counts. -/
theorem outermostLiterals_of_literals {n : Node} (h : n.literals ≠ []) (ps : List TextPath) :
    outermostLiterals (⟨[], n⟩ :: ps.map (TextPath.below n)) = n.literals := by
  have hself : TextPath.IsOutermost ⟨[], n⟩ := ⟨h, by simp⟩
  have hbelow : (ps.map (TextPath.below n)).filter (·.IsOutermost) = [] := by
    refine List.filter_eq_nil_iff.mpr fun p hp => ?_
    obtain ⟨q, -, rfl⟩ := List.mem_map.mp hp
    simp [TextPath.isOutermost_below, h]
  unfold outermostLiterals
  rw [List.filter_cons_of_pos (by simpa using hself), hbelow, List.flatMap_singleton]

/-- Below a node without texts of its own everything counts as it does from there. -/
theorem outermostLiterals_of_no_literals {n : Node} (h : n.literals = []) (ps : List TextPath) :
    outermostLiterals (⟨[], n⟩ :: ps.map (TextPath.below n)) = outermostLiterals ps := by
  have hself : ¬TextPath.IsOutermost ⟨[], n⟩ := fun hn => hn.1 h
  have hbelow : (fun p : TextPath => decide (p.below n).IsOutermost)
      = fun p => decide p.IsOutermost := by
    funext p
    simp [TextPath.isOutermost_below, h]
  unfold outermostLiterals
  rw [List.filter_cons_of_neg (by simpa using hself), List.filter_map, List.flatMap_map]
  show (ps.filter fun p => decide (p.below n).IsOutermost).flatMap (fun p => p.node.literals) = _
  rw [hbelow]

mutual

/-- **The text of a node is that of the outermost nodes that have any.** -/
theorem Node.textContent_eq_outermost : ∀ n : Node,
    n.textContent = String.join (outermostLiterals n.textPaths)
  | ⟨kind, props, style, children⟩ => by
      have hchildren := textContents_eq_outermost children
      unfold Node.textContent Node.textPaths
      rw [Node.ownText?_eq_literals]
      by_cases hown : (Node.mk kind props style children).literals = []
      · rw [outermostLiterals_of_no_literals hown, hown]
        exact hchildren
      · rw [outermostLiterals_of_literals hown, joinLeaves?_of_ne_nil hown]

theorem textContents_eq_outermost : ∀ ns : List Node,
    textContents ns = String.join (outermostLiterals (textPathsOf ns))
  | [] => by
      rw [textContents, textPathsOf]
      rfl
  | n :: rest => by
      rw [textContents, textPathsOf, textContents_eq_outermost rest]
      split
      · rw [outermostLiterals_append, String.join_append, Node.textContent_eq_outermost n]
      · rfl

end

/-! ### Runs -/

mutual

/-- **The runs of a text are its characters.** -/
theorem Node.join_spans (f : Format) : ∀ n : Node,
    String.join ((n.spans f).map Span.text) = n.textContent
  | ⟨kind, props, style, children⟩ => by
      unfold Node.spans Node.textContent
      cases (Node.mk kind props style children).ownText? with
      | some s => simp
      | none => exact join_spansOf f children

theorem join_spansOf (f : Format) : ∀ ns : List Node,
    String.join ((spansOf f ns).map Span.text) = textContents ns
  | [] => by
      rw [spansOf, textContents]
      rfl
  | n :: rest => by
      rw [spansOf, textContents]
      split
      · rw [List.map_append, String.join_append, Node.join_spans _ n, join_spansOf f rest]
      · exact join_spansOf f rest

end

mutual

/-- The runs of a text have the alignment of the text, whatever is asked for inside it. -/
theorem Node.align_of_mem_spans (f : Format) : ∀ n : Node,
    ∀ s ∈ n.spans f, s.format.align = f.align
  | ⟨kind, props, style, children⟩ => by
      unfold Node.spans
      cases (Node.mk kind props style children).ownText? with
      | some t =>
          intro s hs
          rw [List.mem_singleton.mp hs]
      | none => exact align_of_mem_spansOf f children

theorem align_of_mem_spansOf (f : Format) : ∀ ns : List Node,
    ∀ s ∈ spansOf f ns, s.format.align = f.align
  | [] => by simp [spansOf]
  | n :: rest => by
      have hrest := align_of_mem_spansOf f rest
      rw [spansOf]
      split
      · intro s hs
        rcases List.mem_append.mp hs with hs | hs
        · exact Node.align_of_mem_spans { f.withStyle n.style with align := f.align } n s hs
        · exact hrest s hs
      · exact hrest

end

/-- Runs without characters make no difference to the characters. -/
theorem join_visible (spans : List Span) :
    String.join ((spans.filter fun s => !s.text.isEmpty).map Span.text)
      = String.join (spans.map Span.text) := by
  induction spans with
  | nil => rfl
  | cons s rest ih =>
      by_cases hs : s.text = ""
      · rw [List.filter_cons_of_neg (by simp [hs]), ih, List.map_cons, String.join_cons, hs,
          String.empty_append]
      · rw [List.filter_cons_of_pos (by simpa using hs), List.map_cons, List.map_cons,
          String.join_cons, String.join_cons, ih]

/-- There are no runs with characters if there are no characters. -/
theorem visible_eq_nil_iff (spans : List Span) :
    (spans.filter fun s => !s.text.isEmpty) = [] ↔ String.join (spans.map Span.text) = "" := by
  induction spans with
  | nil => simp
  | cons s rest ih => by_cases hs : s.text = "" <;> simp_all

/-! ### On a line -/

namespace Job

/-- The job `j'` is `j` with some texts printed, and nothing else but changes of mode. -/
def Prints (j : Job) (texts : List String) (j' : Job) : Prop :=
  ∃ cs, Sent j cs j' ∧ (cs.filter fun c => !c.isMode) = texts.map fun s => .text s j.page

theorem Prints.eq_nil {j : Job} {texts : List String} (h : j.Prints texts j) : texts = [] := by
  obtain ⟨cs, hsent, htexts⟩ := h
  have hcs : cs = [] := by simpa using hsent.commands
  rw [hcs] at htexts
  exact List.map_eq_nil_iff.mp htexts.symm

/-- The operations of a line, changes of mode apart, are its texts and the line end. -/
theorem filter_line (page : CodePage) (d : Dialect) {runs : List Span}
    (h : ∀ s ∈ runs, s.text.isEmpty = false) :
    (((Piece.line runs).operations.flatMap (Operation.plain page d)).filter fun c => !c.isMode)
      = (runs.map Span.text ++ ["\n"]).map fun s => .text s page := by
  have hrun : ∀ s ∈ runs, (((Piece.runOperations s).flatMap (Operation.plain page d)).filter
      fun c => !c.isMode) = [.text s.text page] := by
    intro s hs
    simp [Piece.runOperations, Operation.plain, Operation.textCommands, h s hs, Command.isMode]
  have hruns : (runs.flatMap fun s => ((Piece.runOperations s).flatMap
      (Operation.plain page d)).filter fun c => !c.isMode)
        = runs.flatMap fun s => [.text s.text page] :=
    List.flatMap_congr hrun
  rw [Piece.operations, List.flatMap_append, List.flatMap_assoc, List.filter_append,
    List.filter_flatMap, hruns, List.map_append, List.map_map]
  rw [← List.map_eq_flatMap]
  rfl

theorem line_prints (j : Job) {runs : List Span} (h : ∀ s ∈ runs, s.text.isEmpty = false) :
    j.Prints (runs.map Span.text ++ ["\n"]) (runs.foldl span j).newline := by
  have hrun : (runs.foldl span j).newline = j.run (Piece.line runs).operations :=
    piece_run j (.line runs)
  obtain ⟨cs, hsent, halike⟩ := run_alike (Piece.line runs).operations j
  have hcarried := congrArg (List.map Prod.snd) halike.executed
  rw [map_snd_executed, map_snd_executed, filter_line j.page j.dialect h] at hcarried
  rw [hrun]
  exact ⟨cs, hsent, hcarried⟩

end Job

namespace Walk

/-- The walk prints the text of a node and ends the line. -/
def PrintsLine (n : Node) (w : Walker) : Prop :=
  ∃ job texts, text n w = .ok () { w with job := job } ∧
    w.job.Prints (texts ++ ["\n"]) job ∧ String.join texts = n.textContent

/-- A text without characters is not printed at all. -/
theorem text_of_empty {n : Node} (h : n.textContent = "") (w : Walker) :
    text n w = .ok () w := by
  have hnone : ((n.spans w.desired).filter fun s => !s.text.isEmpty) = [] :=
    (visible_eq_nil_iff _).mpr ((Node.join_spans w.desired n).trans h)
  have hline : w.job.spanLine (n.spans w.desired) = w.job := by
    unfold Job.spanLine
    dsimp only
    rw [hnone]
    rfl
  show EStateM.Result.ok () { w with job := w.job.spanLine (n.spans w.desired) } = _
  rw [hline]

/-- **A text is printed on a line exactly if it has characters.** -/
theorem printsLine_iff (n : Node) (w : Walker) : PrintsLine n w ↔ n.textContent ≠ "" := by
  constructor
  · rintro ⟨job, texts, htext, hprints, -⟩ hempty
    rw [text_of_empty hempty] at htext
    have hjob : w.job = job := congrArg Walker.job (EStateM.Result.ok.inj htext).2
    rw [← hjob] at hprints
    simpa using hprints.eq_nil
  · intro h
    have hsome : ((n.spans w.desired).filter fun s => !s.text.isEmpty) ≠ [] := by
      rwa [Ne, visible_eq_nil_iff, Node.join_spans]
    have hline : w.job.spanLine (n.spans w.desired)
        = (((n.spans w.desired).filter fun s => !s.text.isEmpty).foldl Job.span w.job).newline :=
      if_neg (by simpa using hsome)
    have hvisible : ∀ s ∈ (n.spans w.desired).filter fun s => !s.text.isEmpty,
        s.text.isEmpty = false := by
      intro s hs
      simpa using (List.mem_filter.mp hs).2
    refine ⟨_, _, rfl, ?_, (join_visible _).trans (Node.join_spans w.desired n)⟩
    rw [hline]
    exact w.job.line_prints hvisible

end Walk

/-! ### In a column -/

theorem textLines_ne_nil_iff (text : String) (bold : Bool) (width : Nat) :
    textLines text bold width ≠ [] ↔ text ≠ "" := by
  unfold textLines
  by_cases h : text = ""
  · simp [h]
  · simp [h, Text.wrap_ne_nil]

/-- A frame shows what is in it. -/
theorem frameLines_inj {style : Style} {bold : Bool} {width : Nat} {as bs : List Line}
    (h : frameLines style bold width as = frameLines style bold width bs) : as = bs := by
  unfold frameLines at h
  exact List.append_cancel_left (List.append_cancel_right (List.append_cancel_right h))

theorem Node.role_of_isText {n : Node} (h : n.kind.isText = true) : n.role = .text := by
  unfold role roleOf
  cases hkind : n.kind <;> simp_all [NodeKind.isText]

theorem Node.print_text (images : ImageCache) {n : Node} (h : n.role = .text) :
    n.print images = Walk.within n.style (Walk.framed n.style (Walk.text n)) := by
  obtain ⟨kind, props, style, children⟩ := n
  have hrole : Node.roleOf kind style = .text := h
  unfold Node.print
  rw [hrole]

/-- **A column has content lines for a text exactly if it has characters.** -/
theorem renderBlock_has_content_iff {n : Node} (h : n.role = .text) (bold : Bool) (width : Nat) :
    (∃ content, content ≠ [] ∧ renderBlock bold width n
      = frameLines n.style (n.style.text.bold.getD bold) width content) ↔
      n.textContent ≠ "" := by
  rw [← textLines_ne_nil_iff n.textContent (n.style.text.bold.getD bold) width,
    renderBlock_text bold width h]
  constructor
  · rintro ⟨content, hcontent, hframe⟩
    rwa [frameLines_inj hframe]
  · intro hlines
    exact ⟨_, hlines, rfl⟩

/-- **A text flattens to the same characters wherever it is printed.**  Its runs have the
alignment of the line, and their characters are the text of the node: that of the outermost
nodes with texts on the ways down from it.  Printed among other nodes, it takes a line if it
has any characters and nothing otherwise; and just then it has lines in a column. -/
theorem Node.text_flattens {n : Node} (h : n.kind.isText = true) :
    (∀ f : Format, String.join ((n.spans f).map Span.text) = n.textContent ∧
      ∀ s ∈ n.spans f, s.format.align = f.align) ∧
    n.textContent = String.join (outermostLiterals n.textPaths) ∧
    (∀ images, n.print images = Walk.within n.style (Walk.framed n.style (Walk.text n))) ∧
    (∀ w, (Walk.PrintsLine n w ↔ n.textContent ≠ "") ∧
      (n.textContent = "" → Walk.text n w = .ok () w)) ∧
    ∀ bold width, (∃ content, content ≠ [] ∧ renderBlock bold width n
      = frameLines n.style (n.style.text.bold.getD bold) width content) ↔
        n.textContent ≠ "" := by
  have hrole := Node.role_of_isText h
  refine ⟨fun f => ⟨n.join_spans f, n.align_of_mem_spans f⟩, n.textContent_eq_outermost,
    fun images => Node.print_text images hrole, fun w => ⟨Walk.printsLine_iff n w, ?_⟩,
    renderBlock_has_content_iff hrole⟩
  intro hempty
  exact Walk.text_of_empty hempty w

/-- A text of other texts.  Its own property has no leaf; the first one inside it has its
texts in a list, besides others that do not count, and the second one an empty text. -/
def nested : Node :=
  ((Node.ofKind .text).withProp "children" (.array [.array [], .null])).withChildren
    [((Node.ofKind .textNode).withProp "children" (.string "No")).withProp "text"
        (.array [.string "Tea ", .array [.number (.int 2), .bool true]]),
      Node.ofImage "leaf",
      ((Node.ofKind .textNode).withProp "text" (.string "")).withChildren [Node.ofText "No"],
      Node.ofText "x"]

theorem Node.text_flattens_nested :
    nested.kind.isText = true ∧
    outermostLiterals nested.textPaths = ["Tea ", "2", "", "x"] ∧
    String.join ((nested.spans .default).map Span.text) = "Tea 2x" ∧
    (∀ w, Walk.PrintsLine nested w) ∧
    ∃ content, content ≠ [] ∧ renderBlock false 3 nested = frameLines .empty false 3 content := by
  have hleaves : outermostLiterals nested.textPaths = ["Tea ", "2", "", "x"] := by decide
  obtain ⟨hspans, htext, -, hline, hcolumn⟩ := Node.text_flattens (n := nested) rfl
  rw [hleaves] at htext
  have hsome : nested.textContent ≠ "" := by
    rw [htext]
    decide
  exact ⟨rfl, hleaves, (hspans .default).1.trans (htext.trans (by decide)),
    fun w => (hline w).1.mpr hsome, (hcolumn false 3).mpr hsome⟩

end Receipt
