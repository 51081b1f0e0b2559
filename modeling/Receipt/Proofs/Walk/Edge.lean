/-
Rows and borders stay within the edges of the paper.

A line of characters of one size takes as many times its length as the size magnifies.
Rows and borders are laid out for the characters that a line has room for at the wanted
size, and they are printed at that size, so the division there and the multiplication
here cancel.

What is printed for a document is divided into a part for each of its pieces, and the
part of a row further into lines.  A line is runs of text and one line break behind
them; since nothing in the runs breaks a line, it is one line on paper.
-/
import Receipt.Proofs.Row.Layout
import Receipt.Proofs.Walk.Printed

namespace Receipt

/-! ### Runs that fit a line -/

def lineLength (runs : List Span) : Nat :=
  (runs.map fun s => s.text.length).sum

/-- Runs of text that fit on one line of the paper. -/
structure FitsLine (paperWidth : Nat) (runs : List Span) : Prop where
  /-- At the magnification of any of them there is room for the characters of all. -/
  width : ∀ s ∈ runs, lineLength runs * s.format.size.width.toNat ≤ paperWidth
  clean : ∀ s ∈ runs, ∀ c ∈ s.text.toList, Text.Clean c

theorem lineLength_filter_le (p : Span → Bool) (runs : List Span) :
    lineLength (runs.filter p) ≤ lineLength runs := by
  induction runs with
  | nil => exact Nat.le_refl 0
  | cons s rest ih =>
      unfold lineLength at ih ⊢
      cases hp : p s with
      | true =>
          rw [List.filter_cons_of_pos hp]
          simp only [List.map_cons, List.sum_cons]
          omega
      | false =>
          rw [List.filter_cons_of_neg (by simp [hp])]
          simp only [List.map_cons, List.sum_cons]
          omega

theorem FitsLine.filter {paperWidth : Nat} {runs : List Span} (h : FitsLine paperWidth runs)
    (p : Span → Bool) : FitsLine paperWidth (runs.filter p) where
  width s hs := by
    have hlen := Nat.mul_le_mul_right s.format.size.width.toNat (lineLength_filter_le p runs)
    exact hlen.trans (h.width s (List.mem_filter.mp hs).1)
  clean s hs := h.clean s (List.mem_filter.mp hs).1

theorem Format.columns_mul_le (f : Format) (paperWidth : Nat) :
    f.columns paperWidth * f.size.width.toNat ≤ paperWidth := by
  have hmax : f.size.width.toNat ≤ (max f.size.width 1).toNat := by
    show _ ≤ (if f.size.width ≤ 1 then 1 else f.size.width).toNat
    split
    · exact UInt8.le_iff_toNat_le.mp (by assumption)
    · exact Nat.le_refl _
  calc f.columns paperWidth * f.size.width.toNat
      ≤ f.columns paperWidth * (max f.size.width 1).toNat := Nat.mul_le_mul_left _ hmax
    _ ≤ paperWidth := Nat.div_mul_le_self _ _

/-- A border fits, and so does each line of a row. -/
def Piece.Fits (paperWidth : Nat) : Piece → Prop
  | .border f s => FitsLine paperWidth [⟨f, s⟩]
  | .row size ls => ∀ l ∈ ls, FitsLine paperWidth (l.map (segmentSpan size))
  | _ => True

theorem fitsLine_border (f : Format) (paperWidth : Nat) (rule : Rule) :
    FitsLine paperWidth [⟨f, rule.line (f.columns paperWidth)⟩] where
  width s hs := by
    obtain rfl := List.mem_singleton.mp hs
    show ((rule.line (f.columns paperWidth)).length + 0) * _ ≤ _
    rw [Rule.length_line, Nat.add_zero]
    exact f.columns_mul_le paperWidth
  clean s hs c hc := by
    obtain rfl := List.mem_singleton.mp hs
    exact Rule.mem_line drawn_clean hc

theorem lineLength_segments (size : CharacterSize) (l : Line) :
    lineLength (l.map (Piece.segmentSpan size)) = l.chars.length := by
  rw [← Line.width_eq]
  induction l with
  | nil => rfl
  | cons s rest ih =>
      show s.text.length + lineLength (rest.map (Piece.segmentSpan size)) = _
      rw [ih]
      rfl

theorem fitsLine_row (f : Format) (paperWidth : Nat) (n : Node) {l : Line}
    (hl : l ∈ Column.compose (n.columns f.bold (f.columns paperWidth))) :
    FitsLine paperWidth (l.map (Piece.segmentSpan f.size)) where
  width s hs := by
    obtain ⟨segment, -, rfl⟩ := List.mem_map.mp hs
    have hlen := Node.length_of_mem_compose hl
    rw [lineLength_segments]
    exact (Nat.mul_le_mul_right _ hlen).trans (f.columns_mul_le paperWidth)
  clean s hs c hc := by
    obtain ⟨segment, hsegment, rfl⟩ := List.mem_map.mp hs
    refine n.cleanLines_compose_columns f.bold _ l hl c ?_
    exact List.mem_flatMap.mpr ⟨segment, hsegment, hc⟩

/-- **All rows and borders of a document fit.** -/
theorem Piece.fits_everywhere (images : ImageCache) (paperWidth : Nat) (base : Format) :
    Piece.Everywhere images paperWidth base (Piece.Fits paperWidth) where
  feed _ _ := trivial
  border path rule := fitsLine_border (base.along path) paperWidth rule
  line _ _ _ := trivial
  row path n _ hl := fitsLine_row (base.along path) paperWidth n hl
  picture _ _ _ _ := trivial

/-! ### Lines on paper -/

/-- What a printer carried out is one line: text that fits, then one line break. -/
def OneLine (paperWidth : Nat) (page : CodePage) (part : List (Format × Command)) : Prop :=
  ∃ runs g, FitsLine paperWidth runs ∧
    part = runs.map (fun s => (s.format, Command.text s.text page)) ++ [(g, .text "\n" page)]

/-- What is carried out for runs of text: those that are not empty, in their formatting,
and the line break. -/
theorem eq_of_done_lineItems {page : CodePage} {runs : List Span}
    {part : List (Format × Command)}
    (h : List.Forall₂ Item.DoneBy (Piece.lineItems page runs) part) :
    ∃ g, part = (runs.filter fun s => !s.text.isEmpty).map
      (fun s => (s.format, Command.text s.text page)) ++ [(g, .text "\n" page)] := by
  induction runs generalizing part with
  | nil =>
      obtain ⟨e, rest, hdone, hrest, rfl⟩ := List.forall₂_cons_left_iff.mp h
      obtain rfl := List.forall₂_nil_left_iff.mp hrest
      have he : e = (e.1, .text "\n" page) := Prod.ext rfl hdone.1
      exact ⟨e.1, congrArg (fun x => [x]) he⟩
  | cons s rest ih =>
      have hsplit : Piece.lineItems page (s :: rest)
          = Piece.runItems page s ++ Piece.lineItems page rest := by
        simp [Piece.lineItems]
      rw [hsplit] at h
      by_cases hempty : s.text.isEmpty = true
      · have hitems : Piece.runItems page s = [] := by
          simp [Piece.runItems, Operation.textCommands, hempty]
        rw [hitems] at h
        obtain ⟨g, hg⟩ := ih h
        exact ⟨g, by rw [hg, List.filter_cons_of_neg (by simp [hempty])]⟩
      · have hitems : Piece.runItems page s = [⟨some s.format, .text s.text page⟩] := by
          simp [Piece.runItems, Operation.textCommands, hempty]
        rw [hitems] at h
        obtain ⟨e, tail, hdone, htail, rfl⟩ := List.forall₂_cons_left_iff.mp h
        obtain ⟨g, hg⟩ := ih htail
        have he : e = (s.format, .text s.text page) :=
          Prod.ext (hdone.2 s.format rfl) hdone.1
        exact ⟨g, by rw [hg, he, List.filter_cons_of_pos (by simp [hempty])]; rfl⟩

theorem oneLine_of_done {paperWidth : Nat} {page : CodePage} {runs : List Span}
    {part : List (Format × Command)} (hfits : FitsLine paperWidth runs)
    (h : List.Forall₂ Item.DoneBy (Piece.lineItems page runs) part) :
    OneLine paperWidth page part := by
  obtain ⟨g, hg⟩ := eq_of_done_lineItems h
  exact ⟨_, g, hfits.filter _, hg⟩

/-- What is carried out for a list is divided into what is carried out for each. -/
theorem exists_parts {α β γ : Type} {R : β → γ → Prop} {items : α → List β} {xs : List α}
    {ys : List γ} (h : List.Forall₂ R (xs.flatMap items) ys) :
    ∃ parts, ys = parts.flatten ∧
      List.Forall₂ (fun x part => List.Forall₂ R (items x) part) xs parts := by
  induction xs generalizing ys with
  | nil =>
      obtain rfl := List.forall₂_nil_left_iff.mp h
      exact ⟨[], rfl, .nil⟩
  | cons x rest ih =>
      rw [List.flatMap_cons] at h
      have hfirst := (List.forall₂_take_append _ _ _ h.flip).flip
      have hothers := (List.forall₂_drop_append _ _ _ h.flip).flip
      obtain ⟨parts, hparts, hrest⟩ := ih hothers
      refine ⟨ys.take (items x).length :: parts, ?_, .cons hfirst hrest⟩
      rw [List.flatten_cons, ← hparts, List.take_append_drop]

/-- The part of a row or border stays within the paper, line by line. -/
def Piece.Within (paperWidth : Nat) (page : CodePage) (part : List (Format × Command)) :
    Piece → Prop
  | .border _ _ => OneLine paperWidth page part
  | .row _ ls => ∃ lines : List (List (Format × Command)), part = lines.flatten ∧
      lines.length = ls.length ∧ ∀ l ∈ lines, OneLine paperWidth page l
  | _ => True

theorem Piece.within_of_done {paperWidth : Nat} {page : CodePage} {d : Dialect} {p : Piece}
    {part : List (Format × Command)} (hfits : p.Fits paperWidth)
    (h : List.Forall₂ Item.DoneBy (p.items page d) part) : p.Within paperWidth page part := by
  cases p with
  | border f s => exact oneLine_of_done hfits h
  | row size ls =>
      obtain ⟨lines, hpart, hlines⟩ := exists_parts h
      refine ⟨lines, hpart, hlines.length_eq.symm, ?_⟩
      intro l hl
      obtain ⟨i, hi, rfl⟩ := List.mem_iff_getElem.mp hl
      have hlen := hlines.length_eq
      have hdone := (List.forall₂_iff_get.mp hlines).2 i (by omega) hi
      exact oneLine_of_done (hfits _ (List.get_mem ls ⟨i, by omega⟩)) hdone
  | _ => trivial

namespace Job

/-- **Rows and borders never run past the edge of the paper.**  Whatever was printed
before, what a document has carried out falls into parts for its pieces.  The part of a
border is one line, and that of a row as many lines as were composed for it: text
without a break in it, of no more characters than the paper has room for at the
magnification in force, and then one line break. -/
theorem printNode_within_paper (paperWidth : Nat) (page : CodePage) (d : Dialect)
    (history : List Operation) (images : ImageCache) (root : Node) :
    let j := (start paperWidth page d).run history
    let ps := Piece.reached (root.pieces images paperWidth j.format [])
    ∃ cs parts, Sent j cs (j.printNode images root).1 ∧
      executed j.format cs = parts.flatten ∧
      List.Forall₂ (fun p part => List.Forall₂ Item.DoneBy (p.items page d) part ∧
        p.Within paperWidth page part) ps parts := by
  intro j ps
  obtain ⟨_, hrun, -⟩ := run_alike history (start paperWidth page d)
  have hj : j.format.size.Known := run_known history _ CharacterSize.known_normal
  obtain ⟨cs, hsent, hdone⟩ := printNode_sends j hj images root
  rw [show j.paperWidth = paperWidth from hrun.paperWidth, show j.page = page from hrun.page,
    show j.dialect = d from hrun.dialect] at hdone
  obtain ⟨parts, hparts, hpieces⟩ := exists_parts hdone
  refine ⟨cs, parts, hsent, hparts, ?_⟩
  have hfits : ∀ p ∈ ps, p.Fits paperWidth := fun p hp =>
    Node.forall_pieces (Piece.fits_everywhere images paperWidth j.format) [] root p
      (Piece.mem_of_mem_reached hp)
  refine List.forall₂_iff_get.mpr ⟨hpieces.length_eq, ?_⟩
  intro i hi hi'
  have hpart := (List.forall₂_iff_get.mp hpieces).2 i hi hi'
  exact ⟨hpart, Piece.within_of_done (hfits _ (List.get_mem ps ⟨i, hi⟩)) hpart⟩

end Job

end Receipt
