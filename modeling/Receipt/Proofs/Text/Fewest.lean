/-
No way to divide words into lines takes fewer lines than wrapping.

A division cuts the words of a paragraph into groups that fit on a line each.  Where it cuts
is not known, so the two are compared group by group: while the words of one group are filled
in, wrapping completes one line at most.  For if a word of the group does not fit on the line
so far, this word starts a line, and the rest of its group fits behind it.  The first group
completes no line, since it starts on an empty one; so there are no more lines than groups.

The lines that wrapping makes are a division themselves, and the bound is attained.
-/
import Receipt.Proofs.Text.Stable

namespace Receipt.Text

/-- Words divided into lines. -/
structure Division (width : Nat) (ws : List (List Char)) (groups : List (List (List Char))) :
    Prop where
  /-- The groups are of neighbours, and leave no word out. -/
  order : groups.flatten = ws
  nonempty : ∀ g ∈ groups, g ≠ []
  /-- The words of a group fit on a line, with a space between neighbours. -/
  fits : ∀ g ∈ groups, (unwords g).length ≤ width

theorem length_unwords_le_cons (w : List Char) (ws : List (List Char)) :
    (unwords ws).length ≤ (unwords (w :: ws)).length := by
  cases ws with
  | nil => exact Nat.zero_le _
  | cons u rest =>
      rw [unwords_cons_cons, List.length_append, List.length_cons]
      omega

/-- A word that would fit on a line, but does not behind what stands there, completes it. -/
theorem addWord_of_no_room {width : Nat} {line word : List Char} (hline : line ≠ [])
    (hword : word.length ≤ width) (hroom : width < line.length + 1 + word.length) :
    addWord width line word = ([line], word) := by
  have hempty : ¬line.isEmpty = true := by simpa using hline
  rw [addWord_of_not_fits (Or.inr hroom), breakWord_of_le hword, if_neg hempty]
  rfl

section

variable {width : Nat}

/-! ### Group by group -/

/-- **While the words of one group are filled in, one line is completed at most.** -/
theorem exists_fill_group {group : List (List Char)} (hfilled : ∀ w ∈ group, w ≠ [])
    (hfits : (unwords group).length ≤ width) {line : List Char} (hline : line ≠ [])
    (rest : List (List Char)) :
    ∃ done line', done.length ≤ 1 ∧ line' ≠ [] ∧
      fill width line (group ++ rest) = done ++ fill width line' rest := by
  induction group generalizing line with
  | nil => exact ⟨[], line, Nat.zero_le 1, hline, rfl⟩
  | cons w group ih =>
      have hw : w ≠ [] := hfilled w (by simp)
      by_cases hroom : line.length + 1 + w.length ≤ width
      · have hlonger : line ++ ' ' :: w ≠ [] := by simp
        obtain ⟨done, line', hdone, hline', hfill⟩ :=
          ih (fun u hu => hfilled u (by simp [hu]))
            (Nat.le_trans (length_unwords_le_cons w group) hfits) hlonger
        refine ⟨done, line', hdone, hline', ?_⟩
        rw [List.cons_append, fill, addWord_of_fits hline hroom]
        exact hfill
      · -- The word starts a line, and all of the group behind it goes there too.
        rw [unwords_cons] at hfits
        have hword : w.length ≤ width := by
          rw [List.length_append] at hfits
          omega
        refine ⟨[line], w ++ group.flatMap fun u => ' ' :: u, Nat.le_refl 1, by simp [hw], ?_⟩
        rw [List.cons_append, fill, addWord_of_no_room hline hword (Nat.lt_of_not_le hroom)]
        exact congrArg (line :: ·) (fill_append_of_fits hw hfits rest)

/-- **Behind a line there are at most as many lines as groups that follow.** -/
theorem length_fill_le {groups : List (List (List Char))}
    (hfilled : ∀ g ∈ groups, ∀ w ∈ g, w ≠ []) (hfits : ∀ g ∈ groups, (unwords g).length ≤ width)
    {line : List Char} (hline : line ≠ []) :
    (fill width line groups.flatten).length ≤ groups.length + 1 := by
  induction groups generalizing line with
  | nil => exact Nat.le_refl 1
  | cons g groups ih =>
      obtain ⟨done, line', hdone, hline', hfill⟩ :=
        exists_fill_group (hfilled g (by simp)) (hfits g (by simp)) hline groups.flatten
      have hrest := ih (fun g hg => hfilled g (by simp [hg])) (fun g hg => hfits g (by simp [hg]))
        hline'
      rw [List.flatten_cons, hfill, List.length_append, List.length_cons]
      omega

/-- There are at most as many lines as groups. -/
theorem Division.length_le {ws : List (List Char)} {groups : List (List (List Char))}
    (h : Division width ws groups) (hne : ws ≠ []) (hfilled : ∀ w ∈ ws, w ≠ []) :
    (fill width [] ws).length ≤ groups.length := by
  obtain ⟨rfl, hnonempty, hfits⟩ := h
  have hwords : ∀ g ∈ groups, ∀ w ∈ g, w ≠ [] :=
    fun g hg w hw => hfilled w (List.mem_flatten.mpr ⟨g, hg, hw⟩)
  cases groups with
  | nil => exact absurd rfl hne
  | cons g groups =>
      obtain ⟨w, ws, rfl⟩ := List.exists_cons_of_ne_nil (hnonempty g (by simp))
      have hw : w ≠ [] := hwords (w :: ws) (by simp) w (by simp)
      have hline : unwords (w :: ws) ≠ [] := by
        rw [unwords_cons]
        simp [hw]
      rw [List.flatten_cons, fill_unwords hw (hfits _ (by simp))]
      exact length_fill_le (fun g hg => hwords g (by simp [hg]))
        (fun g hg => hfits g (by simp [hg])) hline

/-! ### The lines are a division -/

/-- The words on the line so far, and those that follow, are divided into the lines. -/
theorem exists_division_fill {ws : List (List Char)} (hfilled : ∀ w ∈ ws, w ≠ [])
    (hshort : ∀ w ∈ ws, w.length ≤ width) {group : List (List Char)}
    (hline : unwords group ≠ []) (hfits : (unwords group).length ≤ width) :
    ∃ groups, Division width (group ++ ws) groups ∧
      fill width (unwords group) ws = groups.map unwords := by
  have hgroup : group ≠ [] := fun hnil => hline (hnil ▸ unwords_nil)
  induction ws generalizing group with
  | nil =>
      refine ⟨[group], ⟨by simp, ?_, ?_⟩, rfl⟩
      · exact fun g hg => List.mem_singleton.mp hg ▸ hgroup
      · exact fun g hg => List.mem_singleton.mp hg ▸ hfits
  | cons w ws ih =>
      have hw : w ≠ [] := hfilled w (by simp)
      have hword : w.length ≤ width := hshort w (by simp)
      have hrest := @ih (fun u hu => hfilled u (by simp [hu])) fun u hu => hshort u (by simp [hu])
      have hown : unwords [w] ≠ [] := by simpa using hw
      by_cases hroom : (unwords group).length + 1 + w.length ≤ width
      · have hlonger : unwords (group ++ [w]) = unwords group ++ ' ' :: w :=
          unwords_concat hgroup w
        have hlength : (unwords (group ++ [w])).length ≤ width := by
          rw [hlonger, List.length_append, List.length_cons]
          omega
        obtain ⟨groups, hdivision, hfill⟩ := hrest (by rw [hlonger]; simp) hlength (by simp)
        refine ⟨groups, by simpa using hdivision, ?_⟩
        rw [fill, addWord_of_fits hline hroom, ← hlonger]
        exact hfill
      · obtain ⟨groups, ⟨horder, hnonempty, hgroups⟩, hfill⟩ :=
          hrest hown (by simpa using hword) (by simp)
        refine ⟨group :: groups, ⟨?_, ?_, ?_⟩, ?_⟩
        · rw [List.flatten_cons, horder, List.singleton_append]
        · exact List.forall_mem_cons.mpr ⟨hgroup, hnonempty⟩
        · exact List.forall_mem_cons.mpr ⟨hfits, hgroups⟩
        · rw [fill, addWord_of_no_room hline hword (Nat.lt_of_not_le hroom), List.map_cons]
          rw [unwords_singleton] at hfill
          exact congrArg (unwords group :: ·) hfill

/-- The words of a paragraph are divided into its lines. -/
theorem exists_division {ws : List (List Char)} (hne : ws ≠ []) (hfilled : ∀ w ∈ ws, w ≠ [])
    (hshort : ∀ w ∈ ws, w.length ≤ width) :
    ∃ groups, Division width ws groups ∧ fill width [] ws = groups.map unwords := by
  cases ws with
  | nil => exact absurd rfl hne
  | cons w ws =>
      have hword : (unwords [w]).length ≤ width := by simpa using hshort w (by simp)
      have hw : unwords [w] ≠ [] := by simpa using hfilled w (by simp)
      obtain ⟨groups, hdivision, hfill⟩ := exists_division_fill
        (fun u hu => hfilled u (List.mem_cons_of_mem w hu))
        (fun u hu => hshort u (List.mem_cons_of_mem w hu)) hw hword
      refine ⟨groups, hdivision, ?_⟩
      rw [← hfill, unwords_singleton, fill, addWord_nil_of_le (hshort w (by simp))]
      rfl

end

/-- **Wrapping takes the fewest lines.**  For a paragraph that has words, none of them longer
than a line, every division of its words has at least as many groups as wrapping makes lines; and
the lines are a division, so there is one with no more. -/
theorem wrap_fewest {s : String} {width : Nat} (hwidth : 1 ≤ width) (hparagraph : '\n' ∉ s.toList)
    (hwords : words s.toList ≠ []) (hshort : ∀ w ∈ words s.toList, w.length ≤ width) :
    (∀ groups, Division width (words s.toList) groups → (wrap s width).length ≤ groups.length) ∧
    ∃ groups, Division width (words s.toList) groups ∧
      wrap s width = groups.map fun g => String.ofList (unwords g) := by
  have hfilled : ∀ w ∈ words s.toList, w ≠ [] := fun w hw => ne_nil_of_mem_words hw
  have hlines : wrap s width = (fill width [] (words s.toList)).map String.ofList := by
    unfold wrap
    rw [wrapChars_of_no_newline hwidth hparagraph]
    rfl
  rw [hlines]
  refine ⟨fun groups hdivision => ?_, ?_⟩
  · rw [List.length_map]
    exact hdivision.length_le hwords hfilled
  · obtain ⟨groups, hdivision, hfill⟩ := exists_division hwords hfilled hshort
    exact ⟨groups, hdivision, by rw [hfill, List.map_map]; rfl⟩

/-- Four words that are also divided into three lines, but not into one. -/
theorem wrap_fewest_fox :
    1 ≤ 10 ∧ '\n' ∉ "the quick brown fox".toList ∧
    words "the quick brown fox".toList
      = ["the".toList, "quick".toList, "brown".toList, "fox".toList] ∧
    (∀ w ∈ words "the quick brown fox".toList, w.length ≤ 10) ∧
    Division 10 (words "the quick brown fox".toList)
      [["the".toList], ["quick".toList], ["brown".toList, "fox".toList]] ∧
    (wrap "the quick brown fox" 10).length ≤ 3 ∧
    ¬∃ group, Division 10 (words "the quick brown fox".toList) [group] := by
  have hnewline : '\n' ∉ "the quick brown fox".toList := by decide +kernel
  have hwords : words "the quick brown fox".toList
      = ["the".toList, "quick".toList, "brown".toList, "fox".toList] := by decide +kernel
  have hshort : ∀ w ∈ words "the quick brown fox".toList, w.length ≤ 10 := by decide +kernel
  have hlines : (wrap "the quick brown fox" 10).length = 2 := by decide +kernel
  have hthree : Division 10 (words "the quick brown fox".toList)
      [["the".toList], ["quick".toList], ["brown".toList, "fox".toList]] :=
    ⟨by rw [hwords]; rfl, by decide, by decide⟩
  obtain ⟨hfewest, -⟩ := wrap_fewest (by decide) hnewline (by rw [hwords]; decide) hshort
  refine ⟨by decide, hnewline, hwords, hshort, hthree, hfewest _ hthree, ?_⟩
  rintro ⟨group, hone⟩
  have hle := hfewest [group] hone
  rw [hlines, List.length_singleton] at hle
  exact absurd hle (by decide)

end Receipt.Text
