/-
What a document puts on paper, whoever prints it.

A piece puts its runs on paper, each in the looks of its formatting, and advances at the
end of each line.  Pictures are left out.  What is left is neither a matter of the dialect
nor of the modes that were in force before, so it does not matter what pictures one of two
printers is sent in between: they change modes that the next run asks for anyway.

The formatting that a command is carried out in is known from the items of a piece for all
commands but two, a feed and the end of a line.  Those advance the paper, which has no
looks.
-/
import Receipt.Proofs.Printer.Paper
import Receipt.Proofs.Walk.Printed

namespace Receipt

/-! ### Items -/

/-- What an item puts on paper. -/
def Item.paper (i : Item) : List Event :=
  i.command.paper (i.format.getD .default)

/-- An item that is meant for no formatting puts the same on paper in any. -/
def Item.Steady (i : Item) : Prop :=
  i.format = none → ∀ f g : Format, i.command.paper f = i.command.paper g

theorem Item.DoneBy.paper_eq {i : Item} {e : Format × Command} (h : i.DoneBy e) (hi : i.Steady) :
    e.2.paper e.1 = i.paper := by
  obtain ⟨hcommand, hformat⟩ := h
  unfold Item.paper
  rw [hcommand]
  cases hf : i.format with
  | none => exact hi hf _ _
  | some f => rw [hformat f hf, Option.getD_some]

theorem paper_eq_of_done {items : List Item} {es : List (Format × Command)}
    (h : List.Forall₂ Item.DoneBy items es) (hitems : ∀ i ∈ items, i.Steady) :
    (es.flatMap fun e => e.2.paper e.1) = items.flatMap Item.paper := by
  induction h with
  | nil => rfl
  | cons hdone _ ih =>
      rw [List.flatMap_cons, List.flatMap_cons, hdone.paper_eq (hitems _ (by simp)),
        ih fun i hi => hitems i (by simp [hi])]

/-! ### Pieces -/

namespace Piece

variable (page : CodePage) (d : Dialect)

/-- A line of runs on paper. -/
def linePaper (runs : List Span) : List Event :=
  (runs.flatMap fun s => (page.encode s.text).map (Event.ofByte s.format.look)) ++ [.advance]

/-- What a piece puts on paper that is no picture. -/
def paper : Piece → List Event
  | .feed lines => List.replicate lines .advance
  | .border f s => linePaper page [⟨f, s⟩]
  | .line runs => linePaper page runs
  | .row size ls => ls.flatMap fun l => linePaper page (l.map (segmentSpan size))
  | .picture _ _ => []

theorem steady_runItems (s : Span) : ∀ i ∈ runItems page s, i.Steady := by
  intro i hi
  obtain ⟨c, -, rfl⟩ := List.mem_map.mp hi
  intro hnone
  simp at hnone

theorem steady_lineItems (runs : List Span) : ∀ i ∈ lineItems page runs, i.Steady := by
  intro i hi
  rcases List.mem_append.mp hi with hi | hi
  · obtain ⟨s, -, hs⟩ := List.mem_flatMap.mp hi
    exact steady_runItems page s i hs
  · obtain rfl := List.mem_singleton.mp hi
    exact fun _ f g => rfl

theorem steady_items (p : Piece) : ∀ i ∈ p.items page d, i.Steady := by
  cases p with
  | feed lines =>
      intro i hi
      obtain rfl := List.mem_singleton.mp hi
      exact fun _ f g => rfl
  | border f s => exact steady_lineItems page [⟨f, s⟩]
  | line runs => exact steady_lineItems page runs
  | row size ls =>
      intro i hi
      obtain ⟨l, -, hl⟩ := List.mem_flatMap.mp hi
      exact steady_lineItems page _ i hl
  | picture f r =>
      intro i hi
      obtain ⟨c, -, rfl⟩ := List.mem_map.mp hi
      intro hnone
      simp at hnone

theorem paper_runItems (s : Span) : (runItems page s).flatMap Item.paper
    = (page.encode s.text).map (Event.ofByte s.format.look) := by
  unfold runItems Operation.textCommands
  split
  · rename_i hempty
    rw [String.isEmpty_iff.mp hempty]
    rfl
  · simp [Item.paper, Command.paper]

theorem paper_lineItems (runs : List Span) :
    (lineItems page runs).flatMap Item.paper = linePaper page runs := by
  unfold lineItems linePaper
  rw [List.flatMap_append, List.flatMap_assoc]
  simp only [paper_runItems]
  rfl

/-- **The items of a piece put on paper what the piece does**, in any dialect. -/
theorem paper_items (p : Piece) : (p.items page d).flatMap Item.paper = p.paper page := by
  cases p with
  | feed lines => exact List.flatMap_singleton _ _
  | border f s => exact paper_lineItems page [⟨f, s⟩]
  | line runs => exact paper_lineItems page runs
  | row size ls =>
      unfold items paper
      rw [List.flatMap_assoc]
      simp only [paper_lineItems]
  | picture f r =>
      show ((Operation.rasterCommands d r).map _).flatMap Item.paper = []
      unfold Operation.rasterCommands
      split <;> rfl

end Piece

/-- **The operations of pieces put on paper what the pieces do**, whatever is in force. -/
theorem Format.paper_pieces (f : Format) {page : CodePage} {d : Dialect} {ps : List Piece}
    (h : ∀ p ∈ ps, p.Known) :
    f.paper ((ps.flatMap Piece.operations).flatMap (Operation.plain page d))
      = ps.flatMap (Piece.paper page) := by
  have hdone : List.Forall₂ Item.DoneBy (ps.flatMap (Piece.items page d))
      (executed f ((ps.flatMap Piece.operations).flatMap (Operation.plain page d))) :=
    (draws_pieces h f trivial).1
  have hsteady : ∀ i ∈ ps.flatMap (Piece.items page d), i.Steady := by
    intro i hi
    obtain ⟨p, -, hp⟩ := List.mem_flatMap.mp hi
    exact Piece.steady_items page d p i hp
  unfold paper
  rw [paper_eq_of_done hdone hsteady, List.flatMap_assoc]
  simp only [Piece.paper_items]

/-! ### Documents -/

section

variable (page : CodePage) (images images' : ImageCache) (paperWidth : Nat) (base : Format)

theorem Piece.paper_pictures (f : Format) (n : Node) :
    (pictures images paperWidth f n).flatMap (paper page) = [] := by
  unfold pictures
  split <;> rfl

theorem Piece.paper_framed {f : Format} {style : Style} {as bs : List Piece}
    (h : as.flatMap (paper page) = bs.flatMap (paper page)) :
    (framed paperWidth f style as).flatMap (paper page)
      = (framed paperWidth f style bs).flatMap (paper page) := by
  unfold framed
  simp only [List.flatMap_append, h]

mutual

/-- **What a node puts on paper does not depend on the images.** -/
theorem Node.paper_pieces (path : List Style) : ∀ n : Node,
    (n.pieces images paperWidth base path).flatMap (Piece.paper page)
      = (n.pieces images' paperWidth base path).flatMap (Piece.paper page)
  | ⟨kind, props, style, children⟩ => by
      have hchildren := paper_piecesOf (path ++ [style]) children
      unfold Node.pieces
      dsimp only
      cases Node.roleOf kind style with
      | skip => rfl
      | text => rfl
      | image =>
          refine Piece.paper_framed page paperWidth ?_
          rw [Piece.paper_pictures, Piece.paper_pictures]
      | row => rfl
      | block => exact Piece.paper_framed page paperWidth hchildren

theorem paper_piecesOf (path : List Style) : ∀ ns : List Node,
    (piecesOf images paperWidth base path ns).flatMap (Piece.paper page)
      = (piecesOf images' paperWidth base path ns).flatMap (Piece.paper page)
  | [] => by simp only [piecesOf]
  | n :: rest => by
      rw [piecesOf, piecesOf, List.flatMap_append, List.flatMap_append, Node.paper_pieces path n,
        paper_piecesOf path rest]

end

end

end Receipt
