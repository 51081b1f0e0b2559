/-
Composed lines, with their emphasis.

What stands on a composed line is known from `Line.chars`, which forgets the emphasis.  Here
the emphasis is kept: `Line.marks` has every character with that of its run.  Pushing text
puts its characters at the end, in the emphasis asked for or, if none is, in some
emphasis; only padding asks for none, and padding is spaces.  So the marks that are not
spaces are those of the cells, each cut to its column.

That the runs of a line have text and differ from their neighbours is kept by every step:
text joins a run of its own emphasis, and trimming only shortens the last run or takes it
away.
-/
import Mathlib.Data.List.Chain
import Receipt.Proofs.Row.Line

namespace Receipt

/-! ### Marks -/

/-- The characters of a run, each with its emphasis. -/
def Segment.marks (s : Segment) : List (Char × Bool) :=
  s.text.toList.map fun c => (c, s.bold)

/-- The marks that are not spaces. -/
def inked (ms : List (Char × Bool)) : List (Char × Bool) :=
  ms.filter fun m => m.1 != ' '

theorem inked_append (ms ns : List (Char × Bool)) : inked (ms ++ ns) = inked ms ++ inked ns :=
  List.filter_append ..

/-- Spaces leave no ink, whatever their emphasis. -/
theorem inked_spaces (n : Nat) (bold : Bool) :
    inked ((Text.spaces n).toList.map fun c => (c, bold)) = [] := by
  rw [Text.toList_spaces, List.map_replicate]
  exact List.filter_replicate_of_neg (by simp)

namespace Line

/-- The characters of a line, each with its emphasis. -/
def marks (l : Line) : List (Char × Bool) :=
  l.flatMap Segment.marks

theorem marks_cons (s : Segment) (l : Line) : marks (s :: l) = s.marks ++ l.marks := rfl

theorem marks_append (l m : Line) : marks (l ++ m) = l.marks ++ m.marks :=
  List.flatMap_append

theorem marks_singleton (s : Segment) : marks [s] = s.marks :=
  List.flatMap_singleton _ _

theorem length_marks (l : Line) : l.marks.length = l.chars.length := by
  induction l with
  | nil => rfl
  | cons s rest ih =>
      rw [marks_cons, chars_cons, List.length_append, List.length_append, ih]
      exact congrArg (· + _) (List.length_map _)

/-- Text stands behind the marks that were there, in the emphasis asked for, or in some
emphasis if none is. -/
theorem exists_marks_push (l : Line) (text : String) (bold : Option Bool) :
    ∃ b, (∀ asked, bold = some asked → b = asked) ∧
      (l.push text bold).marks = l.marks ++ text.toList.map fun c => (c, b) := by
  have hopen : ∀ asked, bold = some asked → bold.getD false = asked := by
    rintro asked rfl
    rfl
  unfold push
  by_cases hempty : text.isEmpty = true
  · rw [if_pos hempty, String.isEmpty_iff.mp hempty]
    exact ⟨bold.getD false, hopen, by simp⟩
  · rw [if_neg hempty]
    cases hlast : l.getLast? with
    | none =>
        refine ⟨bold.getD false, hopen, ?_⟩
        rw [List.getLast?_eq_none_iff.mp hlast]
        exact marks_singleton _
    | some last =>
        obtain ⟨init, rfl⟩ := List.getLast?_eq_some_iff.mp hlast
        dsimp only
        split
        · rename_i hsame
          refine ⟨last.bold, ?_, ?_⟩
          · rintro asked rfl
            exact (beq_iff_eq.mp hsame).symm
          · rw [List.dropLast_concat, marks_append, marks_append, marks_singleton,
              marks_singleton, List.append_assoc]
            congr 1
            unfold Segment.marks
            rw [String.toList_append, List.map_append]
        · refine ⟨bold.getD false, hopen, ?_⟩
          rw [marks_append, marks_singleton]
          rfl

theorem inked_push_spaces (l : Line) (n : Nat) :
    inked (l.push (Text.spaces n) none).marks = inked l.marks := by
  obtain ⟨b, -, hmarks⟩ := exists_marks_push l (Text.spaces n) none
  rw [hmarks, inked_append, inked_spaces, List.append_nil]

theorem marks_pushAll (l cell : Line) :
    marks (cell.foldl (fun l s => l.push s.text (some s.bold)) l) = l.marks ++ cell.marks := by
  induction cell generalizing l with
  | nil => exact (List.append_nil _).symm
  | cons s rest ih =>
      obtain ⟨b, hb, hmarks⟩ := exists_marks_push l s.text (some s.bold)
      obtain rfl := hb s.bold rfl
      rw [List.foldl_cons, ih, hmarks, marks_cons, List.append_assoc]
      rfl

theorem marks_truncate (budget : Nat) (l : Line) :
    (l.truncate budget).marks = l.marks.take budget := by
  induction l generalizing budget with
  | nil => rw [truncate]; exact List.take_nil.symm
  | cons s rest ih =>
      unfold truncate
      by_cases hbudget : budget = 0
      · rw [if_pos hbudget, hbudget]
        rfl
      · rw [if_neg hbudget]
        have hcut : (Text.firstChars budget s.text).length = min budget s.text.toList.length := by
          rw [← String.length_toList, Text.toList_firstChars, List.length_take]
        have hlen : s.marks.length = s.text.toList.length := List.length_map _
        rw [marks_cons, marks_cons, ih, List.take_append, hcut, hlen]
        unfold Segment.marks
        rw [Text.toList_firstChars, List.map_take]
        congr 2
        omega

/-- **A cell leaves the ink of what its column has room for.** -/
theorem inked_pushCell (l cell : Line) (width : Nat) (align : Alignment) :
    inked (l.pushCell cell width align).marks
      = inked l.marks ++ inked (cell.marks.take width) := by
  unfold pushCell
  dsimp only
  rw [inked_push_spaces, marks_pushAll, inked_append, inked_push_spaces, marks_truncate]

theorem filter_rdropWhile_space (cs : List Char) :
    (cs.rdropWhile (· == ' ')).filter (· != ' ') = cs.filter (· != ' ') := by
  induction cs using List.reverseRecOn with
  | nil => rfl
  | append_singleton cs c ih =>
      rw [List.rdropWhile_concat]
      split
      · rename_i hspace
        rw [ih, List.filter_append, List.filter_cons_of_neg (by simpa using hspace)]
        exact (List.append_nil _).symm
      · rfl

theorem inked_trimEndText (s : Segment) :
    inked (Segment.marks ⟨trimEndText s.text, s.bold⟩) = inked s.marks := by
  have htrim : (trimEndText s.text).toList = s.text.toList.rdropWhile (· == ' ') :=
    String.toList_ofList
  unfold inked Segment.marks
  rw [List.filter_map, List.filter_map, htrim]
  exact congrArg _ (filter_rdropWhile_space _)

theorem inked_trimEndReversed (rs : List Segment) :
    inked (marks (trimEndReversed rs).reverse) = inked (marks rs.reverse) := by
  induction rs with
  | nil => rfl
  | cons s rest ih =>
      have hs := inked_trimEndText s
      unfold trimEndReversed
      dsimp only
      rw [List.reverse_cons, marks_append, inked_append, marks_singleton]
      split
      · rename_i hempty
        have hnone : inked s.marks = [] := by
          rw [← hs, Segment.marks, String.isEmpty_iff.mp hempty]
          rfl
        rw [ih, hnone, List.append_nil]
      · rw [List.reverse_cons, marks_append, inked_append, marks_singleton, hs]

/-- Trimming takes spaces away and nothing else. -/
theorem inked_trimEnd (l : Line) : inked l.trimEnd.marks = inked l.marks := by
  unfold trimEnd
  rw [inked_trimEndReversed, List.reverse_reverse]

/-! ### Runs -/

/-- Every run of a line has text, and its neighbours differ from it in emphasis. -/
structure Merged (l : Line) : Prop where
  full : ∀ s ∈ l, s.text ≠ ""
  differ : l.IsChain fun s t => s.bold ≠ t.bold

namespace Merged

theorem nil : Merged [] :=
  ⟨by simp, List.isChain_nil⟩

theorem singleton {text : String} (h : text ≠ "") (bold : Bool) : Merged [⟨text, bold⟩] :=
  ⟨by simpa using h, List.isChain_singleton _⟩

theorem init {l : Line} {s : Segment} (h : Merged (l ++ [s])) : Merged l :=
  ⟨fun t ht => h.full t (List.mem_append_left _ ht), (List.isChain_append.mp h.differ).1⟩

/-- The last run may have other text. -/
theorem exchange {l : Line} {s : Segment} (h : Merged (l ++ [s])) {text : String}
    (htext : text ≠ "") : Merged (l ++ [⟨text, s.bold⟩]) := by
  refine ⟨fun t ht => ?_, ?_⟩
  · rcases List.mem_append.mp ht with ht | ht
    · exact h.full t (List.mem_append_left _ ht)
    · obtain rfl := List.mem_singleton.mp ht
      exact htext
  · obtain ⟨hl, -, hlast⟩ := List.isChain_append.mp h.differ
    refine List.isChain_append.mpr ⟨hl, List.isChain_singleton _, fun t ht u hu => ?_⟩
    obtain rfl := Option.some.inj hu
    exact hlast t ht s rfl

/-- Text of the other emphasis makes a new run. -/
theorem concat {l : Line} {s : Segment} (h : Merged (l ++ [s])) {text : String}
    (htext : text ≠ "") {bold : Bool} (hbold : s.bold ≠ bold) :
    Merged (l ++ [s] ++ [⟨text, bold⟩]) := by
  refine ⟨fun t ht => ?_, ?_⟩
  · rcases List.mem_append.mp ht with ht | ht
    · exact h.full t ht
    · obtain rfl := List.mem_singleton.mp ht
      exact htext
  · refine List.isChain_append.mpr ⟨h.differ, List.isChain_singleton _, fun t ht u hu => ?_⟩
    rw [List.getLast?_concat] at ht
    obtain rfl := Option.some.inj ht
    obtain rfl := Option.some.inj hu
    exact hbold

theorem push {l : Line} (h : Merged l) (text : String) (bold : Option Bool) :
    Merged (l.push text bold) := by
  unfold Line.push
  by_cases hempty : text.isEmpty = true
  · rw [if_pos hempty]
    exact h
  · have htext : text ≠ "" := fun heq => hempty (String.isEmpty_iff.mpr heq)
    rw [if_neg hempty]
    cases hlast : l.getLast? with
    | none => exact singleton htext _
    | some last =>
        obtain ⟨before, rfl⟩ := List.getLast?_eq_some_iff.mp hlast
        dsimp only
        split
        · rw [List.dropLast_concat]
          refine h.exchange fun heq => htext ?_
          have hlen := congrArg String.length heq
          rw [String.length_append, String.length_empty] at hlen
          exact String.length_eq_zero_iff.mp (by omega)
        · rename_i hdiffers
          refine h.concat htext fun heq => hdiffers ?_
          cases bold with
          | none => rfl
          | some b => exact beq_iff_eq.mpr heq.symm

theorem pushCell {l : Line} (h : Merged l) (cell : Line) (width : Nat) (align : Alignment) :
    Merged (l.pushCell cell width align) := by
  have hcell : ∀ (cell l : Line), Merged l →
      Merged (cell.foldl (fun l s => l.push s.text (some s.bold)) l) := by
    intro cell
    induction cell with
    | nil => exact fun _ hl => hl
    | cons s rest ih => exact fun _ hl => ih _ (hl.push _ _)
  unfold Line.pushCell
  exact (hcell _ _ (h.push _ _)).push _ _

theorem trimEndReversed {rs : List Segment} (h : Merged rs.reverse) :
    Merged (trimEndReversed rs).reverse := by
  induction rs with
  | nil => exact h
  | cons s rest ih =>
      rw [List.reverse_cons] at h
      unfold Line.trimEndReversed
      dsimp only
      split
      · exact ih h.init
      · rename_i hfull
        rw [List.reverse_cons]
        exact h.exchange fun heq => hfull (String.isEmpty_iff.mpr heq)

theorem trimEnd {l : Line} (h : Merged l) : Merged l.trimEnd := by
  unfold Line.trimEnd
  exact trimEndReversed (by rwa [List.reverse_reverse])

end Merged

end Line

/-! ### Rows -/

namespace Column

/-- The ink of a column on the line number `i`: that of its cell, as far as there is room. -/
def inkedCell (i : Nat) (c : Column) : List (Char × Bool) :=
  inked ((c.lines.getD i []).marks.take c.width)

/-- A column without a line number `i` has the empty one. -/
theorem getD_text (c : Column) (i : Nat) :
    (c.lines[i]?.map Line.text).getD "" = (c.lines.getD i []).text := by
  rw [List.getD_eq_getElem?_getD]
  cases c.lines[i]? <;> rfl

theorem getD_marks (c : Column) (i : Nat) :
    (c.lines[i]?.map Line.marks).getD [] = (c.lines.getD i []).marks := by
  rw [List.getD_eq_getElem?_getD]
  cases c.lines[i]? <;> rfl

theorem height_eq (columns : List Column) :
    height columns = (columns.map fun c => c.lines.length).foldr max 0 := by
  have hfold : ∀ (columns : List Column) (h : Nat),
      columns.foldl (fun h c => max h c.lines.length) h
        = max h ((columns.map fun c => c.lines.length).foldr max 0) := by
    intro columns
    induction columns with
    | nil => exact fun h => (Nat.max_zero h).symm
    | cons c rest ih =>
        intro h
        rw [List.foldl_cons, ih, List.map_cons, List.foldr_cons, Nat.max_assoc]
  exact (hfold columns 0).trans (Nat.zero_max _)

theorem inked_composeLine (columns : List Column) (i : Nat) :
    inked (composeLine columns i).marks = columns.flatMap (inkedCell i) := by
  have hcells : ∀ (columns : List Column) (l : Line),
      inked (columns.foldl (pushOnto i) l).marks
        = inked l.marks ++ columns.flatMap (inkedCell i) := by
    intro columns
    induction columns with
    | nil => exact fun _ => (List.append_nil _).symm
    | cons c rest ih =>
        intro l
        rw [List.foldl_cons, ih, List.flatMap_cons, ← List.append_assoc]
        exact congrArg (· ++ _) (Line.inked_pushCell l _ c.width c.align)
  unfold composeLine
  rw [Line.inked_trimEnd, hcells]
  rfl

theorem merged_composeLine (columns : List Column) (i : Nat) : (composeLine columns i).Merged := by
  have hcells : ∀ (columns : List Column) (l : Line), l.Merged →
      (columns.foldl (pushOnto i) l).Merged := by
    intro columns
    induction columns with
    | nil => exact fun _ hl => hl
    | cons c rest ih => exact fun _ hl => ih _ (hl.pushCell _ _ _)
  exact (hcells columns [] .nil).trimEnd

/-- A composed line does not end in a space. -/
theorem getLast?_composeLine (columns : List Column) (i : Nat) :
    (composeLine columns i).chars.getLast? ≠ some ' ' := by
  rw [chars_composeLine]
  intro hlast
  obtain ⟨before, hsplit⟩ := List.getLast?_eq_some_iff.mp hlast
  have hne : (columns.flatMap fun c => (c.cellText i).toList).rdropWhile (· == ' ') ≠ [] := by
    rw [hsplit]
    simp
  have hnot := List.rdropWhile_last_not _ _ hne
  simp [hsplit] at hnot

/-- **Composing is putting column beside column.**  There are as many lines as the highest
column has.  The text of each is the texts of its cells one after the other, each brought
to the width of its column and empty where the column has no more lines, without the
spaces at the end.  What is not a space keeps its emphasis.  The runs of a line have text
and differ from their neighbours, no line ends in a space, and none is wider than the
columns together. -/
theorem compose_beside (columns : List Column) :
    let height := (columns.map fun c => c.lines.length).foldr max 0
    (compose columns).length = height ∧
    (compose columns).map Line.text = (List.range height).map (fun i => String.ofList
      ((String.join (columns.map fun c =>
        Text.alignIn ((c.lines[i]?.map Line.text).getD "") c.width c.align)).toList.rdropWhile
          (· == ' '))) ∧
    (compose columns).map (fun l => inked l.marks) = (List.range height).map (fun i =>
      columns.flatMap fun c => inked (((c.lines[i]?.map Line.marks).getD []).take c.width)) ∧
    ∀ l ∈ compose columns, (∀ s ∈ l, s.text ≠ "") ∧ l.IsChain (fun s t => s.bold ≠ t.bold) ∧
      l.text.toList.getLast? ≠ some ' ' ∧ l.width ≤ (columns.map width).sum := by
  intro height
  have hheight : Column.height columns = height := height_eq columns
  unfold compose
  rw [hheight]
  refine ⟨?_, ?_, ?_, ?_⟩
  · rw [List.length_map, List.length_range]
  · rw [List.map_map]
    refine List.map_congr_left fun i _ => ?_
    refine String.toList_inj.mp ?_
    show (composeLine columns i).text.toList = _
    rw [Line.toList_text, chars_composeLine, String.toList_ofList, String.toList_join,
      List.flatMap_map]
    simp only [cellText, getD_text]
  · rw [List.map_map]
    refine List.map_congr_left fun i _ => (inked_composeLine columns i).trans ?_
    unfold inkedCell
    simp only [getD_marks]
  · intro l hl
    obtain ⟨i, -, rfl⟩ := List.mem_map.mp hl
    have hmerged := merged_composeLine columns i
    refine ⟨hmerged.full, hmerged.differ, ?_, ?_⟩
    · rw [Line.toList_text]
      exact getLast?_composeLine columns i
    · rw [Line.width_eq]
      exact length_composeLine columns i

/-- An article in print of its own kind, with its price beside it. -/
theorem compose_beside_article :
    let article : Column := ⟨4, .left, [[⟨"Tea", true⟩], [⟨"hot", false⟩]]⟩
    let price : Column := ⟨5, .right, [[⟨"2.50", false⟩]]⟩
    let line : Line := [⟨"Tea  ", true⟩, ⟨"2.50", false⟩]
    line ∈ compose [article, price] ∧ line.width ≤ 9 := by
  intro article price line
  have hmem : line ∈ compose [article, price] := by decide
  obtain ⟨-, -, -, hlines⟩ := compose_beside [article, price]
  exact ⟨hmem, (hlines line hmem).2.2.2⟩

end Column

end Receipt
