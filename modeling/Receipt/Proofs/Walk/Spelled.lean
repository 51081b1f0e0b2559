/-
The characters that a document prints.

Texts come to be printed as runs on a line or wrapped in the columns of a row.  The one
way leaves them as they are and the other adds spaces; apart from texts there are only
borders.  So what holds of the characters of all texts, and of those that layout writes
of its own, holds of all that is printed.
-/
import Receipt.Proofs.Row.Layout
import Receipt.Proofs.Walk.Does

namespace Receipt

/-- All characters of a piece have a property. -/
def Piece.Spelled (P : Char → Prop) : Piece → Prop
  | .border _ s => ∀ c ∈ s.toList, P c
  | .line runs => ∀ s ∈ runs, ∀ c ∈ s.text.toList, P c
  | .row _ lines => LinesOf P lines
  | .feed _ | .picture _ _ => True

variable {P : Char → Prop}

/-! ### Runs -/

section

variable (base : Format) (align : Alignment)

mutual

/-- A run of a text is one of its texts. -/
theorem Node.forall_mem_runs (path : List Style) : ∀ n : Node, n.kind.isText = true →
    TextsIn P n.texts → ∀ s ∈ n.runs base align path, ∀ c ∈ s.text.toList, P c
  | ⟨kind, props, style, children⟩, htext, h => by
      have hown := fun s => Node.textsIn_own (s := s) h htext
      have hchildren := forall_mem_runsOf (path ++ [style]) children (Node.textsIn_children h)
      unfold Node.runs
      dsimp only
      split
      · rename_i s hs
        intro run hrun
        obtain rfl := List.mem_singleton.mp hrun
        exact hown s hs
      · exact hchildren

theorem forall_mem_runsOf (path : List Style) : ∀ ns : List Node, TextsIn P (textsOf ns) →
    ∀ s ∈ runsOf base align path ns, ∀ c ∈ s.text.toList, P c
  | [], _ => by simp [runsOf]
  | n :: rest, h => by
      obtain ⟨hn, hrest⟩ := textsIn_cons h
      have htail := forall_mem_runsOf path rest hrest
      rw [runsOf]
      split
      · rename_i htext
        intro s hs
        rcases List.mem_append.mp hs with hs | hs
        · exact Node.forall_mem_runs path n htext hn s hs
        · exact htail s hs
      · exact htail

end

end

/-! ### Pieces -/

theorem wrapsTo_self (hspace : P ' ') : WrapsTo P P := by
  intro s line width hwidth hs hline c hc
  rcases Text.mem_of_mem_wrap hwidth hline hc with rfl | hc
  · exact hspace
  · exact hs c hc

section

variable (images : ImageCache) (paperWidth : Nat) (base : Format)

/-- What stands around the content of a node is drawn. -/
theorem Piece.spelled_framed (hP : Drawn P) {f : Format} {style : Style} {content : List Piece}
    (h : ∀ p ∈ content, p.Spelled P) : ∀ p ∈ framed paperWidth f style content, p.Spelled P := by
  have hfeeds {lines : Nat} {p : Piece} (hp : p ∈ feeds lines) : p.Spelled P := by
    unfold feeds at hp
    split at hp
    · simp at hp
    · obtain rfl := List.mem_singleton.mp hp
      trivial
  have hborders {key : String} {p : Piece} (hp : p ∈ borders paperWidth f style key) :
      p.Spelled P := by
    unfold borders at hp
    split at hp
    · obtain rfl := List.mem_singleton.mp hp
      exact fun c hc => Rule.mem_line hP hc
    · simp at hp
  intro p hp
  simp only [framed, List.mem_append] at hp
  rcases hp with hp | hp | hp | hp | hp
  · exact hfeeds hp
  · exact hborders hp
  · exact h p hp
  · exact hborders hp
  · exact hfeeds hp

mutual

/-- **What a node prints is spelled with the characters of its texts and those of layout.** -/
theorem Node.spelled_pieces (hP : Drawn P) (path : List Style) : ∀ n : Node,
    TextsIn P n.texts → ∀ p ∈ n.pieces images paperWidth base path, p.Spelled P
  | ⟨kind, props, style, children⟩, h => by
      have hchildren := spelled_piecesOf hP (path ++ [style]) children (Node.textsIn_children h)
      generalize hn : Node.mk kind props style children = n at *
      cases hrole : n.role with
      | skip => rw [Node.pieces_skip _ _ _ _ hrole]; simp
      | text =>
          rw [Node.pieces_text _ _ _ _ hrole]
          refine Piece.spelled_framed paperWidth hP fun p hp => ?_
          unfold Piece.texts at hp
          dsimp only at hp
          split at hp
          · simp at hp
          · obtain rfl := List.mem_singleton.mp hp
            exact fun s hs => Node.forall_mem_runs base _ path n (Node.isText_of_role hrole) h s
              (List.mem_filter.mp hs).1
      | image =>
          rw [Node.pieces_image _ _ _ _ hrole]
          refine Piece.spelled_framed paperWidth hP fun p hp => ?_
          unfold Piece.pictures at hp
          split at hp
          · obtain rfl := List.mem_singleton.mp hp
            trivial
          · simp at hp
      | row =>
          rw [Node.pieces_row _ _ _ _ hrole]
          refine Piece.spelled_framed paperWidth hP fun p hp => ?_
          obtain rfl := List.mem_singleton.mp hp
          exact Node.linesOf_compose_columns hP (wrapsTo_self hP.space) h _ _
      | block =>
          rw [Node.pieces_block _ _ _ _ hrole]
          subst hn
          exact Piece.spelled_framed paperWidth hP hchildren

theorem spelled_piecesOf (hP : Drawn P) (path : List Style) : ∀ ns : List Node,
    TextsIn P (textsOf ns) → ∀ p ∈ piecesOf images paperWidth base path ns, p.Spelled P
  | [], _ => by simp [piecesOf]
  | n :: rest, h => by
      obtain ⟨hn, hrest⟩ := textsIn_cons h
      have htail := spelled_piecesOf hP path rest hrest
      rw [piecesOf]
      intro p hp
      rcases List.mem_append.mp hp with hp | hp
      · exact Node.spelled_pieces hP path n hn p hp
      · exact htail p hp

end

end

/-! ### Operations -/

/-- A piece asks for no texts but those it is spelled with. -/
theorem Piece.spelled_operations {p : Piece} (h : p.Spelled P) {s : String}
    (hs : Operation.text s ∈ p.operations) : ∀ c ∈ s.toList, P c := by
  cases p with
  | feed lines => simp [operations] at hs
  | border f t =>
      obtain rfl : s = t := by simpa [operations, runOperations] using hs
      exact h
  | line runs =>
      obtain ⟨run, hrun, rfl⟩ : ∃ run ∈ runs, s = run.text := by
        simpa [operations, runOperations] using hs
      exact h run hrun
  | row size ls =>
      obtain ⟨l, hl, t, ht, rfl⟩ : ∃ l ∈ ls, ∃ t ∈ l, s = t.text := by
        simpa [operations, lineOperations, segmentOperations] using hs
      exact fun c hc => h l hl c (List.mem_flatMap.mpr ⟨t, ht, hc⟩)
  | picture f r => simp [operations] at hs

end Receipt
