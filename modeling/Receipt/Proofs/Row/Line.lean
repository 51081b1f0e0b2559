/-
What stands on a composed line.

How text is divided into runs is a matter of emphasis alone, so `Line.chars` forgets
it.  On characters, pushing is appending and cutting is taking, and a line of a row is
what the texts of its cells, each brought to the width of its column, make one after
the other, without the spaces at the end.
-/
import Mathlib.Algebra.Order.Ring.Nat
import Mathlib.Data.List.DropRight
import Receipt.Row.Line

namespace Receipt

/-! ### Text in a column -/

namespace Text

theorem toList_spaces (n : Nat) : (spaces n).toList = List.replicate n ' ' :=
  String.toList_ofList

theorem toList_firstChars (n : Nat) (s : String) : (firstChars n s).toList = s.toList.take n :=
  String.toList_ofList

/-- The spaces beside a text fill its column. -/
theorem padding_sum (length width : Nat) (align : Alignment) :
    (padding length width align).1 + (padding length width align).2 = width - length := by
  unfold padding
  cases align with
  | left => exact Nat.zero_add _
  | right => exact Nat.add_zero _
  | center => exact Nat.add_sub_cancel' (Nat.div_le_self _ _)

/-- **A text in a column is as wide as the column.** -/
theorem length_alignIn (s : String) (width : Nat) (align : Alignment) :
    (alignIn s width align).toList.length = width := by
  have hsum := padding_sum (firstChars width s).length width align
  have hlen : (firstChars width s).length = min width s.toList.length := by
    rw [← String.length_toList, toList_firstChars, List.length_take]
  unfold alignIn
  simp only [String.toList_append, List.length_append, toList_spaces, List.length_replicate,
    String.length_toList]
  omega

/-- Only spaces are added to what is left of a text. -/
theorem mem_alignIn {s : String} {width : Nat} {align : Alignment} {c : Char}
    (h : c ∈ (alignIn s width align).toList) : c = ' ' ∨ c ∈ s.toList.take width := by
  unfold alignIn at h
  simp only [String.toList_append, List.mem_append, toList_spaces, toList_firstChars] at h
  rcases h with (h | h) | h
  · exact Or.inl (List.eq_of_mem_replicate h)
  · exact Or.inr h
  · exact Or.inl (List.eq_of_mem_replicate h)

end Text

/-! ### Lines -/

namespace Line

/-- The characters of a line, whatever their emphasis. -/
def chars (l : Line) : List Char :=
  l.flatMap fun s => s.text.toList

@[simp] theorem chars_nil : chars [] = [] := rfl

theorem chars_cons (s : Segment) (l : Line) : chars (s :: l) = s.text.toList ++ l.chars := rfl

theorem chars_append (l m : Line) : chars (l ++ m) = l.chars ++ m.chars :=
  List.flatMap_append

theorem chars_singleton (s : Segment) : chars [s] = s.text.toList :=
  List.flatMap_singleton _ _

theorem toList_text (l : Line) : l.text.toList = l.chars := by
  unfold text chars
  rw [String.toList_join, List.flatMap_map]

theorem width_eq (l : Line) : l.width = l.chars.length := by
  induction l with
  | nil => rfl
  | cons s rest ih =>
      rw [chars_cons, List.length_append, ← ih, String.length_toList]
      rfl

theorem chars_push (l : Line) (text : String) (bold : Option Bool) :
    (l.push text bold).chars = l.chars ++ text.toList := by
  unfold push
  by_cases hempty : text.isEmpty = true
  · rw [if_pos hempty, String.isEmpty_iff.mp hempty]
    simp
  · rw [if_neg hempty]
    cases hlast : l.getLast? with
    | none =>
        rw [List.getLast?_eq_none_iff.mp hlast]
        exact chars_singleton _
    | some last =>
        obtain ⟨init, rfl⟩ := List.getLast?_eq_some_iff.mp hlast
        dsimp only
        split
        · rw [List.dropLast_concat, chars_append, chars_append, chars_singleton, chars_singleton,
            String.toList_append, List.append_assoc]
        · rw [chars_append, chars_singleton]

theorem chars_truncate (budget : Nat) (l : Line) :
    (l.truncate budget).chars = l.chars.take budget := by
  induction l generalizing budget with
  | nil => rw [truncate, chars_nil, List.take_nil]
  | cons s rest ih =>
      unfold truncate
      by_cases hbudget : budget = 0
      · rw [if_pos hbudget, hbudget]
        rfl
      · rw [if_neg hbudget]
        have hcut : (Text.firstChars budget s.text).length = min budget s.text.toList.length := by
          rw [← String.length_toList, Text.toList_firstChars, List.length_take]
        rw [chars_cons, chars_cons, ih, List.take_append, hcut]
        show (Text.firstChars budget s.text).toList ++ _ = _
        rw [Text.toList_firstChars]
        congr 2
        omega

theorem chars_pushAll (l cell : Line) :
    (cell.foldl (fun l s => l.push s.text (some s.bold)) l).chars = l.chars ++ cell.chars := by
  induction cell generalizing l with
  | nil => simp
  | cons s rest ih =>
      rw [List.foldl_cons, ih, chars_push, chars_cons, List.append_assoc]

/-- **A cell adds its text, brought to the width of the column.** -/
theorem chars_pushCell (l cell : Line) (width : Nat) (align : Alignment) :
    (l.pushCell cell width align).chars
      = l.chars ++ (Text.alignIn cell.text width align).toList := by
  have hcut : (Text.firstChars width cell.text).toList = (cell.truncate width).chars := by
    rw [Text.toList_firstChars, toList_text, chars_truncate]
  have hlen : (Text.firstChars width cell.text).length = (cell.truncate width).width := by
    rw [← String.length_toList, hcut, width_eq]
  unfold pushCell Text.alignIn
  simp only [chars_push, chars_pushAll, String.toList_append, hcut, hlen, List.append_assoc]

/-- A reversed line loses the spaces at the end of the line. -/
theorem chars_trimEndReversed (rs : List Segment) :
    chars (trimEndReversed rs).reverse = (chars rs.reverse).rdropWhile (· == ' ') := by
  induction rs with
  | nil => rfl
  | cons s rest ih =>
      have htrim : (trimEndText s.text).toList = s.text.toList.rdropWhile (· == ' ') :=
        String.toList_ofList
      -- What is dropped from the run at the end decides whether the one before is reached.
      have hdrop : (chars (s :: rest).reverse).rdropWhile (· == ' ')
          = if (s.text.toList.rdropWhile (· == ' ')).isEmpty
            then (chars rest.reverse).rdropWhile (· == ' ')
            else chars rest.reverse ++ s.text.toList.rdropWhile (· == ' ') := by
        rw [List.reverse_cons, chars_append, chars_singleton]
        unfold List.rdropWhile
        rw [List.reverse_append, List.dropWhile_append, List.isEmpty_reverse]
        split
        · rfl
        · rw [List.reverse_append, List.reverse_reverse]
      have hempty : (trimEndText s.text).isEmpty
          = (s.text.toList.rdropWhile (· == ' ')).isEmpty := by
        rw [← htrim, Bool.eq_iff_iff, String.isEmpty_iff, List.isEmpty_iff]
        exact String.toList_eq_nil_iff.symm
      unfold trimEndReversed
      dsimp only
      rw [hdrop, hempty]
      split
      · exact ih
      · rw [List.reverse_cons, chars_append, chars_singleton, htrim]

theorem chars_trimEnd (l : Line) : l.trimEnd.chars = l.chars.rdropWhile (· == ' ') := by
  unfold trimEnd
  rw [chars_trimEndReversed, List.reverse_reverse]

end Line

/-! ### Rows -/

namespace Column

/-- The text of a column on the line number `i`, as wide as the column. -/
def cellText (i : Nat) (c : Column) : String :=
  Text.alignIn (c.lines.getD i []).text c.width c.align

theorem chars_pushCells (columns : List Column) (i : Nat) (l : Line) :
    (columns.foldl (pushOnto i) l).chars
      = l.chars ++ columns.flatMap fun c => (c.cellText i).toList := by
  induction columns generalizing l with
  | nil => simp
  | cons c rest ih =>
      rw [List.foldl_cons, ih, List.flatMap_cons, ← List.append_assoc]
      congr 1
      exact Line.chars_pushCell l _ c.width c.align

/-- **A line of a row is the texts of its columns side by side, without the spaces at
the end.** -/
theorem chars_composeLine (columns : List Column) (i : Nat) :
    (composeLine columns i).chars
      = (columns.flatMap fun c => (c.cellText i).toList).rdropWhile (· == ' ') := by
  unfold composeLine
  rw [Line.chars_trimEnd, chars_pushCells]
  rfl

def totalWidth (columns : List Column) : Nat :=
  (columns.map width).sum

theorem length_composeLine (columns : List Column) (i : Nat) :
    (composeLine columns i).chars.length ≤ totalWidth columns := by
  have hcells : (columns.flatMap fun c => (c.cellText i).toList).length = totalWidth columns := by
    rw [List.length_flatMap]
    unfold totalWidth cellText
    simp only [Text.length_alignIn]
  rw [chars_composeLine, ← hcells]
  exact (List.rdropWhile_prefix _ _).length_le

/-- On a line of a row stands nothing but spaces and what the columns have room for. -/
theorem mem_composeLine {columns : List Column} {i : Nat} {c : Char}
    (h : c ∈ (composeLine columns i).chars) :
    c = ' ' ∨ ∃ column ∈ columns, c ∈ ((column.lines.getD i []).chars).take column.width := by
  rw [chars_composeLine] at h
  obtain ⟨column, hcolumn, hc⟩ := List.mem_flatMap.mp ((List.rdropWhile_prefix _ _).subset h)
  rcases Text.mem_alignIn hc with hc | hc
  · exact Or.inl hc
  · rw [Line.toList_text] at hc
    exact Or.inr ⟨column, hcolumn, hc⟩

end Column

end Receipt
