/-
Wrapping keeps what is not blank, and keeps to its width.

The ink of a text is its characters without the blanks, in order.  Breaking a text into
paragraphs and words only drops blanks, and filling lines puts every word, in one piece or
in several, behind the words before it.  So the lines together have the ink of the text,
at every width.

A line is as wide as the width allows.  That is kept word by word: a word goes on a line
if it fits there, and one that fits on no line is cut.
-/
import Receipt.Proofs.Text.Wrap

namespace Receipt.Text

/-- What is not blank. -/
def ink (cs : List Char) : List Char :=
  cs.filter fun c => !isBlank c

@[simp] theorem ink_nil : ink [] = [] := rfl

theorem ink_append (cs ds : List Char) : ink (cs ++ ds) = ink cs ++ ink ds :=
  List.filter_append ..

theorem ink_flatten (ls : List (List Char)) : ink ls.flatten = ls.flatMap ink := by
  unfold ink
  rw [List.filter_flatten, List.flatMap_def]

theorem ink_cons_space (cs : List Char) : ink (' ' :: cs) = ink cs :=
  List.filter_cons_of_neg (by decide)

theorem count_ink {c : Char} (h : isBlank c = false) (cs : List Char) :
    (ink cs).count c = cs.count c :=
  List.count_filter (by simp [h])

/-! ### Paragraphs and words -/

/-- The pieces of a list are the list without what it is split at. -/
theorem flatten_splitOnP {α : Type} (p : α → Bool) (xs : List α) :
    (xs.splitOnP p).flatten = xs.filter fun x => !p x := by
  induction xs with
  | nil => rfl
  | cons x rest ih =>
      rw [List.splitOnP_cons_eq_if_modifyHead]
      by_cases hx : p x = true
      · rw [if_pos hx, List.flatten_cons, List.nil_append, ih,
          List.filter_cons_of_neg (by simp [hx])]
      · rw [if_neg hx, List.filter_cons_of_pos (by simpa using hx), ← ih]
        cases hsplit : rest.splitOnP p with
        | nil => exact absurd hsplit (List.splitOnP_ne_nil p rest)
        | cons piece more => rfl

/-- Words are the ink of a text. -/
theorem flatten_words (cs : List Char) : (words cs).flatten = ink cs := by
  unfold words
  rw [List.flatten_filter_not_isEmpty, flatten_splitOnP]
  rfl

theorem ink_paragraphs (cs : List Char) : (paragraphs cs).flatMap ink = ink cs := by
  rw [← ink_flatten]
  unfold paragraphs List.splitOn ink
  rw [flatten_splitOnP, List.filter_filter]
  refine List.filter_congr fun c _ => ?_
  -- A newline is blank, so leaving out blanks leaves out newlines.
  by_cases hc : c = '\n'
  · subst hc
    rfl
  · simp [hc]

/-! ### Ink on lines -/

theorem flatten_breakWord (width : Nat) (word : List Char) :
    (breakWord width word).1.flatten ++ (breakWord width word).2 = word := by
  induction word using breakWord.induct width with
  | case1 word hlong full last hrest ih =>
      rw [breakWord, dif_pos hlong, hrest]
      rw [hrest] at ih
      dsimp only at ih ⊢
      rw [List.flatten_cons, List.append_assoc, ih, List.take_append_drop]
  | case2 word hshort =>
      rw [breakWord, dif_neg hshort]
      rfl

/-- A word more brings its ink, to the lines it completes or to the one that goes on. -/
theorem ink_addWord (width : Nat) (line word : List Char) :
    (addWord width line word).1.flatMap ink ++ ink (addWord width line word).2
      = ink line ++ ink word := by
  have hbroken : (breakWord width word).1.flatMap ink ++ ink (breakWord width word).2
      = ink word := by
    rw [← ink_flatten, ← ink_append, flatten_breakWord]
  unfold addWord
  split
  · split
    · rename_i hline
      rw [List.isEmpty_iff.mp hline]
      rfl
    · split
      · show ink (line ++ ' ' :: word) = _
        rw [ink_append, ink_cons_space]
      · show [line].flatMap ink ++ ink word = _
        rw [List.flatMap_singleton]
  · dsimp only
    split
    · rename_i hline
      rw [List.isEmpty_iff.mp hline, hbroken]
      rfl
    · rw [List.flatMap_cons, List.append_assoc, hbroken]

theorem ink_fill (width : Nat) (line : List Char) (ws : List (List Char)) :
    (fill width line ws).flatMap ink = ink line ++ ws.flatMap ink := by
  induction ws generalizing line with
  | nil => simp [fill]
  | cons word rest ih =>
      rw [fill]
      dsimp only
      rw [List.flatMap_append, ih, ← List.append_assoc, ink_addWord, List.append_assoc,
        List.flatMap_cons]

theorem ink_wrapParagraph (width : Nat) (cs : List Char) :
    (wrapParagraph width cs).flatMap ink = ink cs := by
  have hwords : (words cs).flatMap ink = ink cs := by
    rw [← ink_flatten, flatten_words]
    exact List.filter_filter.trans (by simp [ink])
  unfold wrapParagraph
  rw [ink_fill, hwords]
  rfl

/-- **The lines of a text have its ink, in order.** -/
theorem ink_wrapChars (width : Nat) (cs : List Char) :
    (wrapChars width cs).flatMap ink = ink cs := by
  unfold wrapChars
  split
  · exact List.flatMap_singleton _ _
  · rw [List.flatMap_assoc]
    simp only [ink_wrapParagraph, ink_paragraphs]

/-! ### Width of lines -/

section

variable {width : Nat} (hwidth : 0 < width)

include hwidth

theorem length_le_breakWord (word : List Char) :
    (∀ piece ∈ (breakWord width word).1, piece.length ≤ width) ∧
      (breakWord width word).2.length ≤ width := by
  induction word using breakWord.induct width with
  | case1 word hlong full last hrest ih =>
      rw [breakWord, dif_pos hlong, hrest]
      rw [hrest] at ih
      refine ⟨fun piece hpiece => ?_, ih.2⟩
      rcases List.mem_cons.mp hpiece with rfl | hpiece
      · exact List.length_take_le width word
      · exact ih.1 piece hpiece
  | case2 word hshort =>
      rw [breakWord, dif_neg hshort]
      refine ⟨by simp, ?_⟩
      show word.length ≤ width
      omega

theorem length_le_addWord {line : List Char} (hline : line.length ≤ width) (word : List Char) :
    (∀ l ∈ (addWord width line word).1, l.length ≤ width) ∧
      (addWord width line word).2.length ≤ width := by
  obtain ⟨hfull, hlast⟩ := length_le_breakWord hwidth word
  unfold addWord
  split
  · rename_i hword
    split
    · exact ⟨by simp, hword⟩
    · split
      · rename_i hfits
        refine ⟨by simp, ?_⟩
        rw [List.length_append, List.length_cons]
        omega
      · exact ⟨by simpa using hline, hword⟩
  · refine ⟨?_, hlast⟩
    dsimp only
    split
    · exact hfull
    · intro l hl
      rcases List.mem_cons.mp hl with rfl | hl
      · exact hline
      · exact hfull l hl

theorem length_le_fill {line : List Char} (hline : line.length ≤ width)
    (ws : List (List Char)) : ∀ l ∈ fill width line ws, l.length ≤ width :=
  forall_fill (Q := fun l => l.length ≤ width) width
    (fun word _ _ hline => length_le_addWord hwidth hline word) hline

/-- **With a width to wrap to, no line is wider.** -/
theorem length_le_of_mem_wrap {s line : String} (hline : line ∈ wrap s width) :
    line.toList.length ≤ width := by
  obtain ⟨paragraph, -, hl⟩ := exists_paragraph_of_mem_wrap hwidth hline
  have hempty : ([] : List Char).length ≤ width := Nat.zero_le width
  exact length_le_fill hwidth hempty (words paragraph) line.toList hl

end

end Receipt.Text
