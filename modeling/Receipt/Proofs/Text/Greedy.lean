/-
Wrapping is greedy.

A line that wrapping makes is words with a space between neighbours, except that a word
longer than a line is cut, and then a line may start with a part of it.  `Part` keeps with
a part what its word has before and after it.  So `Greedy` can say of the lines of a
paragraph all that there is to say: the parts on them are the words, in order, and a line
ends either inside a word, which fills it from end to end, or before a word that does not
fit on it as a whole.

The words so far stand greedily on the lines so far, and one word more keeps that: it goes
on the last line, or on lines of its own.  That is one step of filling, and a paragraph is
the run of all its words.
-/
import Mathlib.Data.List.Chain
import Receipt.Proofs.Text.Ink

namespace Receipt.Text

/-! ### Parts of words -/

/-- A part of a word, with what the word has before it and after it. -/
structure Part where
  before : List Char
  chars : List Char
  after : List Char

namespace Part

/-- The word that a part is of. -/
def word (p : Part) : List Char :=
  p.before ++ p.chars ++ p.after

/-- A part that is all of its word. -/
def IsWhole (p : Part) : Prop :=
  p.before = [] ∧ p.after = []

end Part

/-- The parts of a word that is cut into pieces, behind what it has before them. -/
def cutInto (before : List Char) : List (List Char) → List Part
  | [] => []
  | piece :: rest => ⟨before, piece, rest.flatten⟩ :: cutInto (before ++ piece) rest

theorem map_chars_cutInto (before : List Char) (pieces : List (List Char)) :
    (cutInto before pieces).map Part.chars = pieces := by
  induction pieces generalizing before with
  | nil => rfl
  | cons piece rest ih =>
      show piece :: (cutInto (before ++ piece) rest).map Part.chars = piece :: rest
      rw [ih]

theorem word_of_mem_cutInto {before : List Char} {pieces : List (List Char)} {p : Part}
    (h : p ∈ cutInto before pieces) : p.word = before ++ pieces.flatten := by
  induction pieces generalizing before with
  | nil => simp [cutInto] at h
  | cons piece rest ih =>
      rcases List.mem_cons.mp h with rfl | h
      · simp [Part.word]
      · rw [ih h, List.flatten_cons, List.append_assoc]

/-! ### Lines of parts -/

/-- The characters of a line with these parts on it: a space between neighbours. -/
def joined (l : List Part) : List Char :=
  [' '].intercalate (l.map Part.chars)

theorem joined_singleton (p : Part) : joined [p] = p.chars :=
  List.intercalate_singleton

theorem joined_cons (p : Part) (rest : List Part) :
    joined (p :: rest) = p.chars ++ rest.flatMap fun q => ' ' :: q.chars := by
  show unwords (p.chars :: rest.map Part.chars) = _
  rw [unwords_cons, List.flatMap_map]

/-- A part more on a line that has some already comes behind a space. -/
theorem joined_concat {l : List Part} (h : l ≠ []) (p : Part) :
    joined (l ++ [p]) = joined l ++ ' ' :: p.chars := by
  show unwords ((l ++ [p]).map Part.chars) = _
  rw [List.map_append]
  exact unwords_concat (by simpa using h) p.chars

/-- Why a line ends where the next one starts. -/
inductive Break (width : Nat) : List Part → List Part → Prop
  /-- It is full, of a word that goes on. -/
  | inside {p q : Part} {rest : List Part} (full : p.chars.length = width)
      (goesOn : p.after ≠ []) (word : q.word = p.word) (next : q.before = p.before ++ p.chars) :
      Break width [p] (q :: rest)
  /-- It has no room for the whole of the next word. -/
  | between {l : List Part} {q : Part} {rest : List Part} (starts : q.before = [])
      (noRoom : width < (joined l).length + 1 + q.word.length) : Break width l (q :: rest)

/-- Nothing that comes later on the next line is a reason. -/
theorem Break.concat {width : Nat} {l m : List Part} (h : Break width l m) (p : Part) :
    Break width l (m ++ [p]) := by
  cases h with
  | inside full goesOn word next => exact .inside full goesOn word next
  | between starts noRoom => exact .between starts noRoom

/-- What stands on a line: one part of a word or more, all but the first of them whole. -/
structure WellSet (width : Nat) (l : List Part) : Prop where
  nonempty : l ≠ []
  filled : ∀ p ∈ l, p.chars ≠ []
  /-- Only words that are longer than a line are cut. -/
  cut : ∀ p ∈ l, p.IsWhole ∨ width < p.word.length
  /-- Behind the first part of a line stand whole words. -/
  whole : ∀ p ∈ l.tail, p.IsWhole

namespace WellSet

variable {width : Nat}

theorem singleton {p : Part} (hfilled : p.chars ≠ []) (hcut : p.IsWhole ∨ width < p.word.length) :
    WellSet width [p] where
  nonempty := by simp
  filled q hq := by rwa [List.mem_singleton.mp hq]
  cut q hq := by rwa [List.mem_singleton.mp hq]
  whole q hq := by simp at hq

/-- A word more behind what stands on a line. -/
theorem concat {l : List Part} (h : WellSet width l) {w : List Char} (hw : w ≠ []) :
    WellSet width (l ++ [⟨[], w, []⟩]) where
  nonempty := by simp
  filled p hp := by
    rcases List.mem_append.mp hp with hp | hp
    · exact h.filled p hp
    · rwa [List.mem_singleton.mp hp]
  cut p hp := by
    rcases List.mem_append.mp hp with hp | hp
    · exact h.cut p hp
    · rw [List.mem_singleton.mp hp]
      exact Or.inl ⟨rfl, rfl⟩
  whole p hp := by
    rw [List.tail_append_of_ne_nil h.nonempty] at hp
    rcases List.mem_append.mp hp with hp | hp
    · exact h.whole p hp
    · rw [List.mem_singleton.mp hp]
      exact ⟨rfl, rfl⟩

theorem joined_ne_nil {l : List Part} (h : WellSet width l) : joined l ≠ [] := by
  obtain ⟨p, rest, rfl⟩ := List.exists_cons_of_ne_nil h.nonempty
  rw [joined_cons]
  simp [h.filled p]

end WellSet

/-- The words of a paragraph stand on its lines, as many on each as there is room for. -/
structure Greedy (width : Nat) (ws : List (List Char)) (ls : List (List Part)) : Prop where
  /-- The parts on the lines are those of the words, in order. -/
  order : ∃ cuts : List (List (List Char)), cuts.map List.flatten = ws ∧
    ls.flatten = cuts.flatMap (cutInto [])
  lines : ∀ l ∈ ls, WellSet width l
  breaks : ls.IsChain (Break width)

/-- The lines of a paragraph in characters.  One without words has an empty line. -/
def setLines (ls : List (List Part)) : List (List Char) :=
  if ls.isEmpty then [[]] else ls.map joined

/-! ### Broken words -/

/-- Pieces on lines of their own: each of them fills its line, but for the last. -/
theorem isChain_cutInto {width : Nat} (before : List Char) {pieces : List (List Char)}
    {last : List Char} (hfull : ∀ piece ∈ pieces, piece.length = width) (hlast : last ≠ []) :
    ((cutInto before (pieces ++ [last])).map fun p => [p]).IsChain (Break width) := by
  induction pieces generalizing before with
  | nil => exact .singleton _
  | cons piece rest ih =>
      have hrest := ih (before ++ piece) fun q hq => hfull q (by simp [hq])
      refine List.isChain_cons.mpr ⟨fun m hm => ?_, hrest⟩
      obtain ⟨next, others, hnext⟩ : ∃ next others, rest ++ [last] = next :: others :=
        List.exists_cons_of_ne_nil (by simp)
      have hm : m ∈ ((cutInto (before ++ piece) (rest ++ [last])).map fun p => [p]).head? := hm
      rw [hnext] at hm
      obtain rfl := Option.some.inj hm
      refine .inside (hfull piece (by simp)) ?_ ?_ rfl
      · show (rest ++ [last]).flatten ≠ []
        simp [hlast]
      · show (before ++ piece) ++ next ++ others.flatten
          = before ++ piece ++ (rest ++ [last]).flatten
        rw [hnext, List.flatten_cons, List.append_assoc]

/-- A word in pieces that fill a line each, and a last one. -/
structure Broken (width : Nat) (word : List Char) (pieces : List (List Char))
    (last : List Char) : Prop where
  flatten : (pieces ++ [last]).flatten = word
  full : ∀ piece ∈ pieces, piece.length = width
  rest : last ≠ []
  /-- A word that is not longer than a line is not broken. -/
  long : pieces = [] ∨ width < word.length

namespace Broken

variable {width : Nat} {word last : List Char} {pieces : List (List Char)}

theorem exists_first (_ : Broken width word pieces last) :
    ∃ first others, pieces ++ [last] = first :: others :=
  List.exists_cons_of_ne_nil (by simp)

theorem wellSet (h : Broken width word pieces last) (hwidth : 0 < width) {p : Part}
    (hp : p ∈ cutInto [] (pieces ++ [last])) : WellSet width [p] := by
  have hchars : p.chars ∈ pieces ++ [last] := by
    rw [← map_chars_cutInto [] (pieces ++ [last])]
    exact List.mem_map_of_mem hp
  refine .singleton ?_ ?_
  · rcases List.mem_append.mp hchars with hpiece | hpiece
    · rw [← List.length_pos_iff, h.full _ hpiece]
      exact hwidth
    · rw [List.mem_singleton.mp hpiece]
      exact h.rest
  · rcases h.long with rfl | hlong
    · rw [List.mem_singleton.mp hp]
      exact Or.inl ⟨rfl, rfl⟩
    · rw [word_of_mem_cutInto hp, List.nil_append, h.flatten]
      exact Or.inr hlong

end Broken

namespace Greedy

variable {width : Nat} {ws : List (List Char)} {ls : List (List Part)}

theorem nil : Greedy width [] [] :=
  ⟨⟨[], rfl, rfl⟩, by simp, .nil⟩

/-! ### One word more -/

/-- A word on the last line, behind what stands there. -/
theorem sameLine {l : List Part} {w : List Char} (h : Greedy width ws (ls ++ [l]))
    (hw : w ≠ []) : Greedy width (ws ++ [w]) (ls ++ [l ++ [⟨[], w, []⟩]]) where
  order := by
    obtain ⟨cuts, hwords, horder⟩ := h.order
    refine ⟨cuts ++ [[w]], by simp [hwords], ?_⟩
    rw [List.flatMap_append, ← horder]
    simp [cutInto]
  lines m hm := by
    rcases List.mem_append.mp hm with hm | hm
    · exact h.lines m (List.mem_append_left _ hm)
    · rw [List.mem_singleton.mp hm]
      exact (h.lines l (by simp)).concat hw
  breaks := by
    obtain ⟨hold, -, hlast⟩ := List.isChain_append.mp h.breaks
    refine List.isChain_append.mpr ⟨hold, .singleton _, ?_⟩
    rintro m hm - ⟨⟩
    exact (hlast m hm l rfl).concat _

/-- A word on lines of its own: the pieces that fill a line each, and the last one. -/
theorem newLines (h : Greedy width ws ls) (hwidth : 0 < width) {word last : List Char}
    {pieces : List (List Char)} (hbroken : Broken width word pieces last)
    (hroom : ∀ l ∈ ls.getLast?, width < (joined l).length + 1 + word.length) :
    Greedy width (ws ++ [word])
      (ls ++ (cutInto [] (pieces ++ [last])).map fun p => [p]) where
  order := by
    obtain ⟨cuts, hwords, horder⟩ := h.order
    refine ⟨cuts ++ [pieces ++ [last]], by simp [hwords, hbroken.flatten], ?_⟩
    rw [List.flatMap_append, List.flatten_append, ← horder, List.flatMap_singleton,
      ← List.flatMap_def, List.flatMap_singleton']
  lines m hm := by
    rcases List.mem_append.mp hm with hm | hm
    · exact h.lines m hm
    · obtain ⟨p, hp, rfl⟩ := List.mem_map.mp hm
      exact hbroken.wellSet hwidth hp
  breaks := by
    refine List.isChain_append.mpr ⟨h.breaks, isChain_cutInto [] hbroken.full hbroken.rest, ?_⟩
    intro l hl m hm
    have hstart := hbroken.flatten
    obtain ⟨first, others, hfirst⟩ := hbroken.exists_first
    rw [hfirst] at hm hstart
    obtain rfl := Option.some.inj hm
    rw [← hstart] at hroom
    exact .between rfl (hroom l hl)

end Greedy

/-! ### Filling lines -/

theorem length_of_mem_breakWord (width : Nat) (word : List Char) :
    ∀ piece ∈ (breakWord width word).1, piece.length = width := by
  induction word using breakWord.induct width with
  | case1 word hlong full last hrest ih =>
      rw [breakWord, dif_pos hlong, hrest]
      rw [hrest] at ih
      intro piece hpiece
      rcases List.mem_cons.mp hpiece with rfl | hpiece
      · rw [List.length_take]
        omega
      · exact ih piece hpiece
  | case2 word hshort =>
      rw [breakWord, dif_neg hshort]
      simp

/-- What is left of a word when it is broken is not nothing. -/
theorem breakWord_last_ne_nil (width : Nat) {word : List Char} (h : word ≠ []) :
    (breakWord width word).2 ≠ [] := by
  induction word using breakWord.induct width with
  | case1 word hlong full last hrest ih =>
      rw [breakWord, dif_pos hlong, hrest]
      rw [hrest] at ih
      exact ih (by rw [Ne, List.drop_eq_nil_iff]; omega)
  | case2 word hshort =>
      rw [breakWord, dif_neg hshort]
      exact h

/-- A word that fits on a line is not broken. -/
theorem breakWord_of_le {width : Nat} {word : List Char} (h : word.length ≤ width) :
    breakWord width word = ([], word) := by
  rw [breakWord, dif_neg (by omega)]

theorem broken_breakWord (width : Nat) {word : List Char} (h : word ≠ []) :
    Broken width word (breakWord width word).1 (breakWord width word).2 where
  flatten := by rw [List.flatten_append, List.flatten_singleton, flatten_breakWord]
  full := length_of_mem_breakWord width word
  rest := breakWord_last_ne_nil width h
  long := by
    by_cases hle : word.length ≤ width
    · rw [breakWord_of_le hle]
      exact Or.inl rfl
    · exact Or.inr (by omega)

theorem addWord_of_fits {width : Nat} {line word : List Char} (hline : line ≠ [])
    (h : line.length + 1 + word.length ≤ width) :
    addWord width line word = ([], line ++ ' ' :: word) := by
  unfold addWord
  rw [if_pos (by omega), if_neg (by simpa using hline), if_pos h]

/-- A word that does not go on the line so far completes it, and is broken. -/
theorem addWord_of_not_fits {width : Nat} {line word : List Char}
    (h : line = [] ∨ width < line.length + 1 + word.length) :
    addWord width line word =
      ((if line.isEmpty then [] else [line]) ++ (breakWord width word).1,
        (breakWord width word).2) := by
  unfold addWord
  by_cases hword : word.length ≤ width
  · rw [if_pos hword, breakWord_of_le hword]
    by_cases hline : line = []
    · simp [hline]
    · have hroom := h.resolve_left hline
      have hempty : ¬line.isEmpty = true := by simpa using hline
      rw [if_neg hempty, if_neg hempty, if_neg (by omega)]
      rfl
  · rw [if_neg hword]
    cases line <;> rfl

theorem setLines_of_ne_nil {ls : List (List Part)} (h : ls ≠ []) :
    setLines ls = ls.map joined := by
  unfold setLines
  rw [if_neg (by simpa using h)]

theorem setLines_concat (ls : List (List Part)) (l : List Part) :
    setLines (ls ++ [l]) = ls.map joined ++ [joined l] := by
  rw [setLines_of_ne_nil (by simp), List.map_append]
  rfl

/-- The pieces of a word on lines of their own. -/
theorem setLines_append_cutInto (ls : List (List Part)) (pieces : List (List Char))
    (last : List Char) :
    setLines (ls ++ (cutInto [] (pieces ++ [last])).map fun p => [p])
      = ls.map joined ++ pieces ++ [last] := by
  obtain ⟨first, others, hfirst⟩ : ∃ first others, pieces ++ [last] = first :: others :=
    List.exists_cons_of_ne_nil (by simp)
  have hown : (cutInto [] (pieces ++ [last])).map (joined ∘ fun p => [p]) = pieces ++ [last] :=
    (List.map_congr_left fun p _ => joined_singleton p).trans (map_chars_cutInto [] _)
  rw [setLines_of_ne_nil (by simp [hfirst, cutInto]), List.map_append, List.map_map, hown,
    List.append_assoc]

namespace Greedy

variable {width : Nat} {ws : List (List Char)} {ls : List (List Part)}
  {done : List (List Char)} {line : List Char}

/-- The line that goes on is the last one, or there is none so far. -/
theorem last_line (h : Greedy width ws ls) (hlines : done ++ [line] = setLines ls) :
    (ls = [] ∧ done = [] ∧ line = []) ∨
      ∃ init l, ls = init ++ [l] ∧ done = init.map joined ∧ line = joined l ∧ line ≠ [] := by
  rcases List.eq_nil_or_concat ls with rfl | ⟨init, l, rfl⟩
  · have hnone : done ++ [line] = [] ++ [[]] := hlines
    obtain ⟨hdone, hline⟩ := List.append_inj' hnone rfl
    exact Or.inl ⟨rfl, hdone, List.head_eq_of_cons_eq hline⟩
  · rw [List.concat_eq_append] at hlines h ⊢
    rw [setLines_concat] at hlines
    obtain ⟨hdone, hline⟩ := List.append_inj' hlines rfl
    refine Or.inr ⟨init, l, rfl, hdone, List.head_eq_of_cons_eq hline, ?_⟩
    rw [List.head_eq_of_cons_eq hline]
    exact (h.lines l (by simp)).joined_ne_nil

/-- What completes lines is all that stands on them. -/
theorem map_joined (h : Greedy width ws ls) (hlines : done ++ [line] = setLines ls) :
    ls.map joined = done ++ if line.isEmpty then [] else [line] := by
  rcases h.last_line hlines with ⟨rfl, rfl, rfl⟩ | ⟨init, l, rfl, rfl, rfl, hline⟩
  · rfl
  · rw [if_neg (by simpa using hline), List.map_append]
    rfl

variable (hwidth : 0 < width)

include hwidth

/-- **One word more keeps the lines greedy.** -/
theorem exists_addWord (h : Greedy width ws ls) (hlines : done ++ [line] = setLines ls)
    {word : List Char} (hword : word ≠ []) :
    ∃ ls', Greedy width (ws ++ [word]) ls' ∧
      done ++ (addWord width line word).1 ++ [(addWord width line word).2] = setLines ls' := by
  by_cases hfits : line ≠ [] ∧ line.length + 1 + word.length ≤ width
  · obtain ⟨hline, hroom⟩ := hfits
    rw [addWord_of_fits hline hroom]
    rcases h.last_line hlines with ⟨-, -, hnone⟩ | ⟨init, l, rfl, rfl, rfl, -⟩
    · exact absurd hnone hline
    · refine ⟨_, h.sameLine hword, ?_⟩
      rw [setLines_concat, joined_concat (h.lines l (by simp)).nonempty, List.append_nil]
  · have hbreaks : line = [] ∨ width < line.length + 1 + word.length := by
      rcases not_and_or.mp hfits with hline | hlong
      · exact Or.inl (not_not.mp hline)
      · exact Or.inr (Nat.lt_of_not_le hlong)
    rw [addWord_of_not_fits hbreaks]
    refine ⟨_, h.newLines hwidth (broken_breakWord width hword) ?_, ?_⟩
    · intro l hl
      rcases h.last_line hlines with ⟨rfl, -, -⟩ | ⟨init, m, rfl, -, rfl, hline⟩
      · simp at hl
      · obtain rfl : m = l := by simpa using hl
        exact hbreaks.resolve_left hline
    · rw [setLines_append_cutInto, h.map_joined hlines]
      simp only [List.append_assoc]

/-- **All words that follow keep the lines greedy.** -/
theorem exists_fill {rest : List (List Char)} (h : Greedy width ws ls)
    (hlines : done ++ [line] = setLines ls) (hwords : ∀ w ∈ rest, w ≠ []) :
    ∃ ls', Greedy width (ws ++ rest) ls' ∧ done ++ fill width line rest = setLines ls' := by
  induction rest generalizing ws ls done line with
  | nil => exact ⟨ls, by rwa [List.append_nil], hlines⟩
  | cons word rest ih =>
      obtain ⟨ls', hword, hlines'⟩ := h.exists_addWord hwidth hlines (hwords word (by simp))
      obtain ⟨ls'', hrest, hdone⟩ := ih hword hlines' fun w hw => hwords w (by simp [hw])
      rw [List.append_assoc] at hrest hdone
      exact ⟨ls'', hrest, hdone⟩

end Greedy

/-! ### Paragraphs -/

theorem setLines_ne_nil (ls : List (List Part)) : setLines ls ≠ [] := by
  unfold setLines
  split
  · simp
  · rename_i h
    simpa using h

/-- Without words there are no lines with anything on them. -/
theorem Greedy.eq_nil {width : Nat} {ls : List (List Part)} (h : Greedy width [] ls) :
    ls = [] := by
  obtain ⟨cuts, hwords, horder⟩ := h.order
  rw [List.map_eq_nil_iff.mp hwords] at horder
  refine List.eq_nil_iff_forall_not_mem.mpr fun l hl => ?_
  exact (h.lines l hl).nonempty (List.flatten_eq_nil_iff.mp horder l hl)

/-- The lines of a paragraph: at least one, greedy, and empty if the paragraph is. -/
def SetGreedily (width : Nat) (paragraph : List Char) (ls : List (List Part)) : Prop :=
  Greedy width (words paragraph) ls ∧ setLines ls ≠ [] ∧
    (words paragraph = [] → setLines ls = [[]])

section

variable {width : Nat} (hwidth : 0 < width)

include hwidth

theorem exists_wrapParagraph (cs : List Char) :
    ∃ ls, SetGreedily width cs ls ∧ wrapParagraph width cs = setLines ls := by
  have hstart : [] ++ [[]] = setLines [] := rfl
  obtain ⟨ls, hgreedy, hlines⟩ := Greedy.nil.exists_fill hwidth hstart
    fun w (hw : w ∈ words cs) => ne_nil_of_mem_words hw
  rw [List.nil_append] at hgreedy hlines
  refine ⟨ls, ⟨hgreedy, setLines_ne_nil ls, fun hnone => ?_⟩, hlines⟩
  rw [hnone] at hgreedy
  rw [hgreedy.eq_nil]
  rfl

theorem exists_wrapParagraphs (ps : List (List Char)) :
    ∃ settings, List.Forall₂ (SetGreedily width) ps settings ∧
      ps.flatMap (wrapParagraph width) = settings.flatMap setLines := by
  induction ps with
  | nil => exact ⟨[], .nil, rfl⟩
  | cons p rest ih =>
      obtain ⟨ls, hset, hlines⟩ := exists_wrapParagraph hwidth p
      obtain ⟨settings, hrest, hothers⟩ := ih
      exact ⟨ls :: settings, .cons hset hrest, by
        rw [List.flatMap_cons, List.flatMap_cons, hlines, hothers]⟩

end

/-- **Wrapping loses nothing and is greedy.**  No line is longer than the width or has a
blank other than the space on it.  The lines are those of the paragraphs, one paragraph
after the other, and on them stand the words of each as early as they can.  All lines
together have the characters of the text that are not blank, in order. -/
theorem wrap_lossless_greedy (s : String) {width : Nat} (hwidth : 1 ≤ width) :
    (∀ line ∈ wrap s width, line.length ≤ width ∧
      ∀ c ∈ line.toList, c = ' ' ∨ isBlank c = false) ∧
    (∃ settings, List.Forall₂ (SetGreedily width) (paragraphs s.toList) settings ∧
      wrap s width = (settings.flatMap setLines).map String.ofList) ∧
    ((wrap s width).flatMap fun line => ink line.toList) = ink s.toList := by
  refine ⟨fun line hline => ⟨?_, fun c hc => clean_of_mem_wrap hwidth hline hc⟩, ?_, ?_⟩
  · rw [← String.length_toList]
    exact length_le_of_mem_wrap hwidth hline
  · obtain ⟨settings, hset, hlines⟩ := exists_wrapParagraphs hwidth (paragraphs s.toList)
    refine ⟨settings, hset, ?_⟩
    unfold wrap wrapChars
    rw [if_neg (by omega), hlines]
  · unfold wrap
    rw [List.flatMap_map]
    simp only [String.toList_ofList]
    exact ink_wrapChars width s.toList

/-- The word in the middle is longer than a line, and its end goes on with the next word. -/
theorem wrap_lossless_greedy_broken :
    1 ≤ 5 ∧
    (∃ ls, Greedy 5 ["to".toList, "wrapped".toList, "x".toList] ls ∧
      wrap "to wrapped x" 5 = (setLines ls).map String.ofList) ∧
    ((wrap "to wrapped x" 5).flatMap fun line => ink line.toList) = "towrappedx".toList := by
  have hwidth : 1 ≤ 5 := by decide
  obtain ⟨-, ⟨settings, hset, hlines⟩, hink⟩ := wrap_lossless_greedy "to wrapped x" hwidth
  have hparagraphs : paragraphs "to wrapped x".toList = ["to wrapped x".toList] := by decide
  have hwords : words "to wrapped x".toList = ["to".toList, "wrapped".toList, "x".toList] := by
    decide
  rw [hparagraphs] at hset
  obtain ⟨ls, others, hone, hrest, rfl⟩ := List.forall₂_cons_left_iff.mp hset
  obtain rfl := List.forall₂_nil_left_iff.mp hrest
  rw [List.flatMap_singleton] at hlines
  exact ⟨hwidth, ⟨ls, hwords ▸ hone.1, hlines⟩, hink.trans (by decide)⟩

end Receipt.Text
