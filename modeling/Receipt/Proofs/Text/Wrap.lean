/-
What wrapping does to the characters of a text.

Wrapping writes no character but the space between two words.  Everything else on a
line comes from a word, so what holds of the space and of the characters of all words
holds of all characters of all lines.  Words hold no blanks, and so the only blank on
a line is the space, provided there is a width to wrap to.

There is always a line, also of a text without words.
-/
import Receipt.Text.Wrap

namespace Receipt.Text

/-- A space, or a character that is not blank. -/
def Clean (c : Char) : Prop :=
  c = ' ' ∨ isBlank c = false

instance : DecidablePred Clean := fun _ =>
  inferInstanceAs (Decidable (_ ∨ _))

theorem clean_space : Clean ' ' :=
  Or.inl rfl

example : ¬Clean '\n' := by decide

/-! ### Words -/

/-- The pieces of a list are made of what it is not split at. -/
theorem forall_mem_splitOnP {α : Type} {p : α → Bool} {P : α → Prop} (xs : List α)
    (h : ∀ x ∈ xs, p x = false → P x) : ∀ piece ∈ xs.splitOnP p, ∀ x ∈ piece, P x := by
  induction xs with
  | nil =>
      intro piece hpiece x hx
      rw [List.splitOnP_nil, List.mem_singleton] at hpiece
      subst hpiece
      simp at hx
  | cons y rest ih =>
      have hrest := ih fun x hx => h x (by simp [hx])
      intro piece hpiece x hx
      rw [List.splitOnP_cons_eq_if_modifyHead] at hpiece
      by_cases hy : p y = true
      · rw [if_pos hy] at hpiece
        rcases List.mem_cons.mp hpiece with rfl | hpiece
        · simp at hx
        · exact hrest piece hpiece x hx
      · rw [if_neg hy] at hpiece
        cases hsplit : rest.splitOnP p with
        | nil => simp [hsplit] at hpiece
        | cons first others =>
            rw [hsplit] at hrest
            rw [hsplit, List.modifyHead_cons] at hpiece
            rcases List.mem_cons.mp hpiece with rfl | hpiece
            · rcases List.mem_cons.mp hx with rfl | hx
              · exact h x (by simp) (by simpa using hy)
              · exact hrest first (by simp) x hx
            · exact hrest piece (List.mem_cons_of_mem first hpiece) x hx

theorem not_blank_of_mem_words {cs w : List Char} (hw : w ∈ words cs) {c : Char} (hc : c ∈ w) :
    isBlank c = false :=
  forall_mem_splitOnP cs (fun _ _ hblank => hblank) w (List.mem_filter.mp hw).1 c hc

theorem mem_of_mem_words {cs w : List Char} (hw : w ∈ words cs) {c : Char} (hc : c ∈ w) :
    c ∈ cs :=
  forall_mem_splitOnP cs (fun _ hmem _ => hmem) w (List.mem_filter.mp hw).1 c hc

theorem mem_of_mem_paragraphs {cs paragraph : List Char} (hp : paragraph ∈ paragraphs cs)
    {c : Char} (hc : c ∈ paragraph) : c ∈ cs :=
  forall_mem_splitOnP cs (fun _ hmem _ => hmem) paragraph hp c hc

theorem ne_nil_of_mem_words {cs w : List Char} (h : w ∈ words cs) : w ≠ [] := by
  simpa using (List.mem_filter.mp h).2

/-! ### Words with spaces between them -/

/-- A run of characters that are not blank. -/
def IsWord (w : List Char) : Prop :=
  w ≠ [] ∧ ∀ c ∈ w, isBlank c = false

theorem isWord_of_mem_words {cs w : List Char} (hw : w ∈ words cs) : IsWord w :=
  ⟨ne_nil_of_mem_words hw, fun _ hc => not_blank_of_mem_words hw hc⟩

/-- Words with a space between neighbours. -/
def unwords (ws : List (List Char)) : List Char :=
  [' '].intercalate ws

@[simp] theorem unwords_nil : unwords [] = [] := rfl

@[simp] theorem unwords_singleton (w : List Char) : unwords [w] = w :=
  List.intercalate_singleton

theorem unwords_cons_cons (w u : List Char) (rest : List (List Char)) :
    unwords (w :: u :: rest) = w ++ ' ' :: unwords (u :: rest) := by
  unfold unwords
  rw [List.intercalate_cons_cons, List.append_assoc]
  rfl

/-- Every word but the first comes behind a space. -/
theorem unwords_cons (w : List Char) (rest : List (List Char)) :
    unwords (w :: rest) = w ++ rest.flatMap fun u => ' ' :: u := by
  induction rest generalizing w with
  | nil => simp
  | cons u rest ih => rw [unwords_cons_cons, ih u, List.flatMap_cons, List.cons_append]

/-- A word more behind others comes behind a space. -/
theorem unwords_concat {ws : List (List Char)} (h : ws ≠ []) (w : List Char) :
    unwords (ws ++ [w]) = unwords ws ++ ' ' :: w := by
  obtain ⟨first, rest, rfl⟩ := List.exists_cons_of_ne_nil h
  rw [List.cons_append, unwords_cons, unwords_cons, List.flatMap_append, List.flatMap_singleton,
    List.append_assoc]

theorem words_append_space (cs ds : List Char) :
    words (cs ++ ' ' :: ds) = words cs ++ words ds := by
  unfold words
  rw [List.splitOnP_append_cons cs ds isBlank_space, List.filter_append]

theorem IsWord.words_eq {w : List Char} (h : IsWord w) : words w = [w] := by
  unfold words
  rw [List.splitOnP_eq_singleton h.2]
  exact List.filter_cons_of_pos (by simpa using h.1)

/-- **The words of words with spaces between them are those words.** -/
theorem words_unwords {ws : List (List Char)} (h : ∀ w ∈ ws, IsWord w) :
    words (unwords ws) = ws := by
  induction ws with
  | nil => rfl
  | cons w rest ih =>
      have hw : words w = [w] := (h w (by simp)).words_eq
      have hrest := ih fun u hu => h u (by simp [hu])
      cases rest with
      | nil => rw [unwords_singleton, hw]
      | cons u rest => rw [unwords_cons_cons, words_append_space, hw, hrest, List.singleton_append]

/-! ### Lines -/

section

variable {P : Char → Prop} (width : Nat)

theorem forall_mem_breakWord {word : List Char} (h : ∀ c ∈ word, P c) :
    (∀ piece ∈ (breakWord width word).1, ∀ c ∈ piece, P c) ∧
      ∀ c ∈ (breakWord width word).2, P c := by
  induction word using breakWord.induct width with
  | case1 word hlong full last hrest ih =>
      rw [breakWord, dif_pos hlong, hrest]
      obtain ⟨hfull, hlast⟩ := ih fun c hc => h c (List.mem_of_mem_drop hc)
      rw [hrest] at hfull hlast
      refine ⟨?_, hlast⟩
      intro piece hpiece c hc
      rcases List.mem_cons.mp hpiece with rfl | hpiece
      · exact h c (List.mem_of_mem_take hc)
      · exact hfull piece hpiece c hc
  | case2 word hshort =>
      rw [breakWord, dif_neg hshort]
      exact ⟨by simp, h⟩

/-- A word more on a line brings its characters and maybe a space. -/
theorem forall_mem_addWord (hspace : P ' ') {line word : List Char} (hline : ∀ c ∈ line, P c)
    (hword : ∀ c ∈ word, P c) :
    (∀ l ∈ (addWord width line word).1, ∀ c ∈ l, P c) ∧
      ∀ c ∈ (addWord width line word).2, P c := by
  obtain ⟨hfull, hlast⟩ := forall_mem_breakWord width hword
  unfold addWord
  split
  · split
    · exact ⟨by simp, hword⟩
    · split
      · refine ⟨by simp, ?_⟩
        intro c hc
        rcases List.mem_append.mp hc with hc | hc
        · exact hline c hc
        · rcases List.mem_cons.mp hc with rfl | hc
          · exact hspace
          · exact hword c hc
      · refine ⟨?_, hword⟩
        intro l hl
        obtain rfl := List.mem_singleton.mp hl
        exact hline
  · refine ⟨?_, hlast⟩
    dsimp only
    split
    · exact hfull
    · intro l hl
      rcases List.mem_cons.mp hl with rfl | hl
      · exact hline
      · exact hfull l hl

/-- **What each word keeps holds of all lines**: of those that it completes, and of the one that
goes on behind it. -/
theorem forall_fill {Q : List Char → Prop} {ws : List (List Char)}
    (hstep : ∀ w ∈ ws, ∀ line, Q line →
      (∀ l ∈ (addWord width line w).1, Q l) ∧ Q (addWord width line w).2)
    {line : List Char} (hline : Q line) : ∀ l ∈ fill width line ws, Q l := by
  induction ws generalizing line with
  | nil =>
      intro l hl
      obtain rfl := List.mem_singleton.mp hl
      exact hline
  | cons word rest ih =>
      obtain ⟨hdone, hgoes⟩ := hstep word (by simp) line hline
      intro l hl
      rw [fill] at hl
      rcases List.mem_append.mp hl with hl | hl
      · exact hdone l hl
      · exact ih (fun w hw => hstep w (by simp [hw])) hgoes l hl

/-- **What holds of the space and of the characters of words holds on all lines.** -/
theorem forall_mem_fill (hspace : P ' ') {ws : List (List Char)} (hws : ∀ w ∈ ws, ∀ c ∈ w, P c)
    {line : List Char} (hline : ∀ c ∈ line, P c) :
    ∀ l ∈ fill width line ws, ∀ c ∈ l, P c :=
  forall_fill (Q := fun l => ∀ c ∈ l, P c) width
    (fun w hw _ hline => forall_mem_addWord width hspace hline (hws w hw)) hline

end

/-- Every line is one of a paragraph. -/
theorem exists_paragraph_of_mem_wrap {s line : String} {width : Nat} (hwidth : 0 < width)
    (hline : line ∈ wrap s width) :
    ∃ paragraph ∈ paragraphs s.toList, line.toList ∈ wrapParagraph width paragraph := by
  obtain ⟨l, hl, rfl⟩ := List.mem_map.mp hline
  rw [wrapChars, if_neg (Nat.ne_of_gt hwidth)] at hl
  rw [String.toList_ofList]
  exact List.mem_flatMap.mp hl

/-- What holds of the space and of the characters of all words holds of all lines. -/
theorem forall_mem_wrap {P : Char → Prop} (hspace : P ' ') {s line : String} {width : Nat}
    (hwidth : 0 < width)
    (hwords : ∀ paragraph ∈ paragraphs s.toList, ∀ w ∈ words paragraph, ∀ c ∈ w, P c)
    (hline : line ∈ wrap s width) : ∀ c ∈ line.toList, P c := by
  obtain ⟨paragraph, hparagraph, hl⟩ := exists_paragraph_of_mem_wrap hwidth hline
  exact forall_mem_fill width hspace (hwords paragraph hparagraph) (by simp) line.toList hl

/-- **With a width to wrap to, no blank but the space stands on a line.** -/
theorem clean_of_mem_wrap {s line : String} {width : Nat} (hwidth : 0 < width)
    (hline : line ∈ wrap s width) {c : Char} (hc : c ∈ line.toList) : Clean c :=
  forall_mem_wrap clean_space hwidth
    (fun _ _ _ hw _ hc => Or.inr (not_blank_of_mem_words hw hc)) hline c hc

/-- Wrapping adds no character but the space. -/
theorem mem_of_mem_wrap {s line : String} {width : Nat} (hwidth : 0 < width)
    (hline : line ∈ wrap s width) {c : Char} (hc : c ∈ line.toList) : c = ' ' ∨ c ∈ s.toList :=
  forall_mem_wrap (P := fun c => c = ' ' ∨ c ∈ s.toList) (Or.inl rfl) hwidth
    (fun _ hp _ hw _ hc => Or.inr (mem_of_mem_paragraphs hp (mem_of_mem_words hw hc))) hline c hc

/-! ### Lines -/

theorem fill_ne_nil (width : Nat) (line : List Char) (ws : List (List Char)) :
    fill width line ws ≠ [] := by
  induction ws generalizing line with
  | nil => simp [fill]
  | cons word rest ih => simp [fill, ih]

/-- Wrapping gives a line at least. -/
theorem wrap_ne_nil (s : String) (width : Nat) : wrap s width ≠ [] := by
  have hchars : wrapChars width s.toList ≠ [] := by
    unfold wrapChars
    split
    · simp
    · obtain ⟨p, ps, hp⟩ := List.exists_cons_of_ne_nil
        (List.splitOnP_ne_nil (· == '\n') s.toList)
      have hparagraphs : paragraphs s.toList = p :: ps := hp
      rw [hparagraphs, List.flatMap_cons]
      simp [wrapParagraph, fill_ne_nil]
  unfold wrap
  simpa using hchars

end Receipt.Text
