/-
Wrapping leaves wrapped lines as they are.

There is nothing left to wrap on a line that wrapping made.  It is words with a space between
neighbours, and reading its words gives those words back; they fit on a line together, so
filling completes no line before the last of them.  A piece of a broken word is a word of
its own here, one that is exactly as long as the width, and the line of a paragraph without
words is that of no words at all.

So a line comes back alone, at the width that it was wrapped to and at any other that it fits
in.  Lines have no newlines on them.  Joined by newlines they are the paragraphs of a new
text, and each of those comes back.
-/
import Receipt.Proofs.Text.Greedy

namespace Receipt.Text

/-! ### Filling one line -/

theorem addWord_nil_of_le {width : Nat} {word : List Char} (h : word.length ≤ width) :
    addWord width [] word = ([], word) := by
  unfold addWord
  rw [if_pos h]
  rfl

section

variable {width : Nat}

/-- **Words that fit behind a line go on it**, and nothing is completed. -/
theorem fill_append_of_fits {line : List Char} (hline : line ≠ []) {ws : List (List Char)}
    (hfits : (line ++ ws.flatMap fun w => ' ' :: w).length ≤ width) (rest : List (List Char)) :
    fill width line (ws ++ rest) = fill width (line ++ ws.flatMap fun w => ' ' :: w) rest := by
  induction ws generalizing line with
  | nil => simp
  | cons w ws ih =>
      rw [List.flatMap_cons, ← List.append_assoc] at hfits ⊢
      have hword : line.length + 1 + w.length ≤ width := by
        simp only [List.length_append, List.length_cons] at hfits
        omega
      rw [List.cons_append, fill, addWord_of_fits hline hword]
      exact ih (by simp) hfits

/-- Words that fit on a line together start with it. -/
theorem fill_unwords {w : List Char} (hw : w ≠ []) {ws : List (List Char)}
    (hfits : (unwords (w :: ws)).length ≤ width) (rest : List (List Char)) :
    fill width [] (w :: ws ++ rest) = fill width (unwords (w :: ws)) rest := by
  rw [unwords_cons] at hfits ⊢
  have hword : w.length ≤ width := by
    rw [List.length_append] at hfits
    omega
  rw [List.cons_append, fill, addWord_nil_of_le hword]
  exact fill_append_of_fits hw hfits rest

/-- **Words that fit on a line together are one line.** -/
theorem wrapParagraph_unwords {ws : List (List Char)} (hws : ∀ w ∈ ws, IsWord w)
    (hfits : (unwords ws).length ≤ width) : wrapParagraph width (unwords ws) = [unwords ws] := by
  unfold wrapParagraph
  rw [words_unwords hws]
  cases ws with
  | nil => rfl
  | cons w ws =>
      have hfilled := fill_unwords (hws w (by simp)).1 hfits []
      rwa [List.append_nil, fill] at hfilled

end

/-! ### The lines of a paragraph -/

/-- Every part on greedy lines is of one of the words. -/
theorem Greedy.word_mem {width : Nat} {ws : List (List Char)} {ls : List (List Part)}
    (h : Greedy width ws ls) {l : List Part} (hl : l ∈ ls) {p : Part} (hp : p ∈ l) :
    p.word ∈ ws := by
  obtain ⟨cuts, rfl, horder⟩ := h.order
  have hparts : p ∈ cuts.flatMap (cutInto []) := horder ▸ List.mem_flatten.mpr ⟨l, hl, hp⟩
  obtain ⟨cut, hcut, hp⟩ := List.mem_flatMap.mp hparts
  rw [word_of_mem_cutInto hp]
  exact List.mem_map_of_mem hcut

/-- A part of a word is a word of its own, unless it is empty. -/
theorem Part.isWord {p : Part} (hfilled : p.chars ≠ []) (hword : IsWord p.word) :
    IsWord p.chars :=
  ⟨hfilled, fun c hc => hword.2 c (List.mem_append_left _ (List.mem_append_right _ hc))⟩

/-- **A line of a paragraph is words with a space between neighbours.** -/
theorem exists_unwords_of_mem_wrapParagraph {width : Nat} (hwidth : 0 < width)
    {cs line : List Char} (hline : line ∈ wrapParagraph width cs) :
    ∃ ws, (∀ w ∈ ws, IsWord w) ∧ line = unwords ws := by
  obtain ⟨ls, ⟨hgreedy, -, -⟩, hlines⟩ := exists_wrapParagraph hwidth cs
  rw [hlines] at hline
  unfold setLines at hline
  split at hline
  · obtain rfl := List.mem_singleton.mp hline
    exact ⟨[], by simp, rfl⟩
  · obtain ⟨l, hl, rfl⟩ := List.mem_map.mp hline
    refine ⟨l.map Part.chars, fun w hw => ?_, rfl⟩
    obtain ⟨p, hp, rfl⟩ := List.mem_map.mp hw
    exact p.isWord ((hgreedy.lines l hl).filled p hp)
      (isWord_of_mem_words (hgreedy.word_mem hl hp))

/-! ### Texts -/

/-- A text without newlines is one paragraph. -/
theorem paragraphs_eq_singleton {cs : List Char} (h : '\n' ∉ cs) : paragraphs cs = [cs] :=
  List.splitOnP_eq_singleton fun c hc => by
    have hne : c ≠ '\n' := fun heq => h (heq ▸ hc)
    simpa using hne

theorem wrapChars_of_no_newline {width : Nat} (hwidth : 0 < width) {cs : List Char}
    (h : '\n' ∉ cs) : wrapChars width cs = wrapParagraph width cs := by
  unfold wrapChars
  rw [if_neg (Nat.ne_of_gt hwidth), paragraphs_eq_singleton h, List.flatMap_singleton]

/-- No line has a newline on it. -/
theorem newline_not_mem_of_mem_wrap {s line : String} {width : Nat} (hwidth : 0 < width)
    (hline : line ∈ wrap s width) : '\n' ∉ line.toList := by
  intro hmem
  have hclean : Clean '\n' := clean_of_mem_wrap hwidth hline hmem
  exact absurd hclean (by decide)

/-- **The characters of a line are a paragraph of one line**, at any width that the line fits
in. -/
theorem wrapParagraph_of_mem_wrap {s line : String} {width width' : Nat} (hwidth : 0 < width)
    (hwider : width ≤ width') (hline : line ∈ wrap s width) :
    wrapParagraph width' line.toList = [line.toList] := by
  have hlength : line.toList.length ≤ width := length_le_of_mem_wrap hwidth hline
  obtain ⟨paragraph, -, hl⟩ := exists_paragraph_of_mem_wrap hwidth hline
  obtain ⟨ws, hws, hwords⟩ := exists_unwords_of_mem_wrapParagraph hwidth hl
  rw [hwords] at hlength ⊢
  exact wrapParagraph_unwords hws (Nat.le_trans hlength hwider)

/-- A line is wrapped to itself. -/
theorem wrap_of_mem_wrap {s line : String} {width width' : Nat} (hwidth : 0 < width)
    (hwider : width ≤ width') (hline : line ∈ wrap s width) : wrap line width' = [line] := by
  unfold wrap
  rw [wrapChars_of_no_newline (Nat.lt_of_lt_of_le hwidth hwider)
      (newline_not_mem_of_mem_wrap hwidth hline),
    wrapParagraph_of_mem_wrap hwidth hwider hline, List.map_singleton, String.ofList_toList]

/-- **Lines that are wrapped to themselves one by one are so when they are joined.** -/
theorem wrap_join {lines : List String} {width : Nat} (hwidth : 0 < width) (hlines : lines ≠ [])
    (hnewline : ∀ line ∈ lines, '\n' ∉ line.toList)
    (hself : ∀ line ∈ lines, wrapParagraph width line.toList = [line.toList]) :
    wrap ("\n".intercalate lines) width = lines := by
  have hparagraphs : paragraphs ("\n".intercalate lines).toList = lines.map String.toList := by
    rw [String.toList_intercalate]
    refine List.splitOn_intercalate '\n' (fun l hl => ?_) (by simpa using hlines)
    obtain ⟨line, hline, rfl⟩ := List.mem_map.mp hl
    exact hnewline line hline
  have hwrapped : (lines.map String.toList).flatMap (wrapParagraph width)
      = lines.map String.toList := by
    rw [List.flatMap_map, List.flatMap_congr hself]
    exact List.map_eq_flatMap.symm
  unfold wrap wrapChars
  rw [if_neg (Nat.ne_of_gt hwidth), hparagraphs, hwrapped, List.map_map]
  exact List.map_id'' (fun line => String.ofList_toList) lines

/-- **Wrapping is stable.**  The lines of a text, joined by newlines, are wrapped to the same
lines, whatever the width; and a line by itself is wrapped to itself, at the width it was wrapped
to and at any greater one. -/
theorem wrap_stable (s : String) (width : Nat) :
    wrap ("\n".intercalate (wrap s width)) width = wrap s width ∧
    ∀ width', 1 ≤ width → width ≤ width' → ∀ line ∈ wrap s width, wrap line width' = [line] := by
  refine ⟨?_, fun width' hwidth hwider line hline => wrap_of_mem_wrap hwidth hwider hline⟩
  rcases Nat.eq_zero_or_pos width with rfl | hwidth
  · -- Without any width there is one line, the text itself.
    have hone (t : String) : wrap t 0 = [t] := congrArg (fun l => [l]) String.ofList_toList
    rw [hone s, String.intercalate_singleton, hone s]
  · exact wrap_join hwidth (wrap_ne_nil s width)
      (fun _ hline => newline_not_mem_of_mem_wrap hwidth hline)
      fun _ hline => wrapParagraph_of_mem_wrap hwidth (Nat.le_refl width) hline

/-- Of two lines, each also stays one where there is more room. -/
theorem wrap_stable_fox :
    wrap "the quick brown fox" 10 = ["the quick", "brown fox"] ∧
    wrap "the quick\nbrown fox" 10 = ["the quick", "brown fox"] ∧
    1 ≤ 10 ∧ 10 ≤ 30 ∧ wrap "the quick" 30 = ["the quick"] := by
  have hlines : wrap "the quick brown fox" 10 = ["the quick", "brown fox"] := by decide +kernel
  have hjoined : "\n".intercalate ["the quick", "brown fox"] = "the quick\nbrown fox" := by
    decide +kernel
  obtain ⟨htext, hline⟩ := wrap_stable "the quick brown fox" 10
  rw [hlines] at htext hline
  rw [hjoined] at htext
  exact ⟨hlines, htext, by decide, by decide,
    hline 30 (by decide) (by decide) "the quick" (by simp)⟩

end Receipt.Text
