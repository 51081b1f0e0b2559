/-
What a document has a printer carry out.

`Piece.items` says for each piece which commands are to be carried out and in which
formatting.  Feeds and the ends of lines may come in any; text and pictures may not.
The commands that get the printer there are not mentioned: the job sends only those
that are needed, and which are needed depends on all that was printed before.

By the simulation of runs it is enough to look at the operations of a piece sent as
they come.  For them the formatting is a matter of the piece alone, which is what
`Draws` states: from any modes, the commands carry out the items.  In a row the
segments set nothing but emphasis, so there the modes have to stand at the left margin
and in the size of the row, and to stay so.
-/
import Mathlib.Data.List.Forall2
import Receipt.Proofs.Walk.Does

namespace Receipt

/-- A command to be carried out, and the formatting it is meant for if that matters. -/
structure Item where
  format : Option Format
  command : Command

/-- The command was carried out, in the formatting it was meant for. -/
def Item.DoneBy (i : Item) (e : Format × Command) : Prop :=
  e.2 = i.command ∧ ∀ f, i.format = some f → e.1 = f

/-- Commands that carry out the items from any modes with the property, and keep it. -/
def Draws (I : Format → Prop) (cs : List Command) (items : List Item) : Prop :=
  ∀ g, I g → List.Forall₂ Item.DoneBy items (executed g cs) ∧ I (g.after cs)

def Anyhow (_ : Format) : Prop := True

section Draws

variable {I : Format → Prop} {as bs : List Command} {is ks : List Item}

theorem Draws.append (h : Draws I as is) (h' : Draws I bs ks) :
    Draws I (as ++ bs) (is ++ ks) := by
  intro g hg
  obtain ⟨hdone, hafter⟩ := h g hg
  obtain ⟨hdone', hafter'⟩ := h' (g.after as) hafter
  rw [executed_append, Format.after_append]
  exact ⟨List.rel_append hdone hdone', hafter'⟩

/-- What is drawn for each of a list is drawn for all of them in turn. -/
theorem Draws.flatMap {α : Type} {cs : α → List Command} {items : α → List Item} {xs : List α}
    (h : ∀ x ∈ xs, Draws I (cs x) (items x)) :
    Draws I (xs.flatMap cs) (xs.flatMap items) := by
  induction xs with
  | nil => exact fun g hg => ⟨List.Forall₂.nil, hg⟩
  | cons x rest ih =>
      rw [List.flatMap_cons, List.flatMap_cons]
      exact (h x (by simp)).append (ih fun y hy => h y (by simp [hy]))

/-- Commands that only change modes, before others that need them. -/
theorem Draws.from_modes {J : Format → Prop} (h : Draws J bs is) (as : List Command)
    (hsilent : ∀ g, executed g as = []) (hmodes : ∀ g : Format, J (g.after as)) :
    Draws Anyhow (as ++ bs) is := by
  intro g _
  rw [executed_append, hsilent, List.nil_append]
  exact ⟨(h _ (hmodes g)).1, trivial⟩

end Draws

/-! ### The items of a piece -/

namespace Piece

variable (page : CodePage) (d : Dialect)

/-- A run of text in its formatting, unless it is empty. -/
def runItems (s : Span) : List Item :=
  (Operation.textCommands page s.text).map fun c => ⟨some s.format, c⟩

def lineItems (runs : List Span) : List Item :=
  runs.flatMap (runItems page) ++ [⟨none, .text "\n" page⟩]

/-- A run of a composed line as it is printed: from the left margin, in the size of the
row and with its own emphasis. -/
def segmentSpan (size : CharacterSize) (s : Segment) : Span :=
  ⟨⟨.left, size, s.bold⟩, s.text⟩

/-- What a piece is to have carried out. -/
def items : Piece → List Item
  | .feed lines => [⟨none, .feed lines⟩]
  | .border f s => lineItems page [⟨f, s⟩]
  | .line runs => lineItems page runs
  | .row size ls => ls.flatMap fun l => lineItems page (l.map (segmentSpan size))
  | .picture f r => (Operation.rasterCommands d r).map fun c => ⟨some f, c⟩

end Piece

/-! ### Drawing -/

section

variable {page : CodePage} {d : Dialect}

theorem draws_one {I : Format → Prop} {c : Command} (hc : c.isMode = false)
    (hmodes : ∀ g, c.modes g = g) : Draws I [c] [⟨none, c⟩] := by
  intro g hg
  rw [executed_content hc, Format.after_cons, hmodes]
  exact ⟨.cons ⟨rfl, by simp⟩ .nil, hg⟩

theorem draws_text {I : Format → Prop} (s : Span) (h : ∀ g, I g → g = s.format) :
    Draws I (Operation.textCommands page s.text) (Piece.runItems page s) := by
  intro g hg
  unfold Piece.runItems Operation.textCommands
  split
  · exact ⟨.nil, hg⟩
  · refine ⟨.cons ⟨rfl, ?_⟩ .nil, hg⟩
    intro f hf
    obtain rfl := Option.some.inj hf
    exact h g hg

/-- To ask for a formatting is to have it, in a size that printers know. -/
theorem after_apply {f : Format} (hf : f.size.Known) (g : Format) :
    g.after (Operation.plain page d (.apply f)) = f := by
  show (⟨f.align, f.size.clamped, f.bold⟩ : Format) = f
  rw [CharacterSize.clamped_eq_self hf]

theorem plain_pair (op op' : Operation) : [op, op'].flatMap (Operation.plain page d)
    = op.plain page d ++ op'.plain page d := by
  rw [List.flatMap_cons, List.flatMap_singleton]

theorem draws_run {s : Span} (hs : s.format.size.Known) :
    Draws Anyhow ((Piece.runOperations s).flatMap (Operation.plain page d))
      (Piece.runItems page s) := by
  have htext : Draws (· = s.format) (Operation.textCommands page s.text)
      (Piece.runItems page s) := draws_text s fun g hg => hg
  rw [Piece.runOperations, plain_pair]
  exact htext.from_modes _ (fun _ => rfl) (after_apply hs)

def AtMargin (size : CharacterSize) (g : Format) : Prop :=
  g.align = .left ∧ g.size = size

theorem draws_segment (size : CharacterSize) (s : Segment) :
    Draws (AtMargin size) ((Piece.segmentOperations s).flatMap (Operation.plain page d))
      (Piece.runItems page (Piece.segmentSpan size s)) := by
  rintro ⟨align, size', bold⟩ ⟨rfl, rfl⟩
  have htext : Draws (· = ⟨.left, size', s.bold⟩) (Operation.textCommands page s.text)
      (Piece.runItems page (Piece.segmentSpan size' s)) :=
    draws_text (Piece.segmentSpan size' s) fun g hg => hg
  obtain ⟨hdone, hafter⟩ := htext ⟨.left, size', s.bold⟩ rfl
  have hmodes : Format.after ⟨.left, size', s.bold⟩ (Operation.textCommands page s.text)
      = ⟨.left, size', s.bold⟩ := hafter
  rw [Piece.segmentOperations, plain_pair, executed_append, Format.after_append]
  refine ⟨hdone, ?_⟩
  show AtMargin size' (Format.after ⟨.left, size', s.bold⟩
    (Operation.textCommands page s.text))
  rw [hmodes]
  exact ⟨rfl, rfl⟩

theorem draws_newline (I : Format → Prop) :
    Draws I (Operation.plain page d .newline) [⟨none, .text "\n" page⟩] :=
  draws_one rfl fun _ => rfl

theorem draws_line (runs : List Span) (h : ∀ s ∈ runs, s.format.size.Known) :
    Draws Anyhow ((runs.flatMap Piece.runOperations ++ [Operation.newline]).flatMap
      (Operation.plain page d)) (Piece.lineItems page runs) := by
  rw [List.flatMap_append, List.flatMap_assoc, List.flatMap_singleton]
  exact (Draws.flatMap fun s hs => draws_run (h s hs)).append (draws_newline _)

theorem draws_composedLine (size : CharacterSize) (l : Line) :
    Draws (AtMargin size) ((Piece.lineOperations l).flatMap (Operation.plain page d))
      (Piece.lineItems page (l.map (Piece.segmentSpan size))) := by
  unfold Piece.lineOperations Piece.lineItems
  rw [List.flatMap_append, List.flatMap_assoc, List.flatMap_singleton, List.flatMap_map]
  exact (Draws.flatMap fun s _ => draws_segment size s).append (draws_newline _)

/-- **The operations of a piece carry out its items, whatever modes they start from.** -/
theorem draws_piece {p : Piece} (h : p.Known) :
    Draws Anyhow (p.operations.flatMap (Operation.plain page d)) (p.items page d) := by
  cases p with
  | feed lines => exact draws_one rfl fun _ => rfl
  | border f s =>
      refine draws_line [⟨f, s⟩] fun t ht => ?_
      obtain rfl := List.mem_singleton.mp ht
      exact h
  | line runs => exact draws_line runs h
  | row size ls =>
      have hlines : Draws (AtMargin size)
          ((ls.flatMap Piece.lineOperations).flatMap (Operation.plain page d))
          (ls.flatMap fun l => Piece.lineItems page (l.map (Piece.segmentSpan size))) := by
        rw [List.flatMap_assoc]
        exact Draws.flatMap fun l _ => draws_composedLine size l
      exact hlines.from_modes [.align .left, .size size.clamped] (fun _ => rfl)
        fun g => ⟨rfl, CharacterSize.clamped_eq_self h⟩
  | picture f r =>
      have hraster : Draws (· = f) (Operation.rasterCommands d r)
          ((Operation.rasterCommands d r).map fun c => ⟨some f, c⟩) := by
        intro g hg
        unfold Operation.rasterCommands
        split
        · refine ⟨.cons ⟨rfl, ?_⟩ .nil, hg⟩
          intro f' hf'
          obtain rfl := Option.some.inj hf'
          exact hg
        · exact ⟨.nil, hg⟩
      rw [Piece.operations, plain_pair]
      exact hraster.from_modes _ (fun _ => rfl) (after_apply h)

theorem draws_pieces {ps : List Piece} (h : ∀ p ∈ ps, p.Known) :
    Draws Anyhow ((ps.flatMap Piece.operations).flatMap (Operation.plain page d))
      (ps.flatMap (Piece.items page d)) := by
  rw [List.flatMap_assoc]
  exact Draws.flatMap fun p hp => draws_piece (h p hp)

end

/-! ### Documents -/

/-- A raster that was built agrees with its dimensions, and is not refused. -/
theorem Node.refusal?_of_mem_pieces {images : ImageCache}
    (h : ∀ e ∈ images, e.2.Consistent) {paperWidth : Nat} {base : Format} {path : List Style}
    {n : Node} {p : Piece} (hp : p ∈ n.pieces images paperWidth base path) :
    p.refusal? = none := by
  have hall : Piece.Everywhere images paperWidth base fun p => p.refusal? = none := {
    feed := fun _ _ => rfl
    border := fun _ _ => rfl
    line := fun _ _ _ => rfl
    row := fun _ _ => rfl
    picture := fun path key r hr => by
      obtain ⟨as, bs, hsplit, -⟩ := List.lookup_eq_some_iff.mp hr
      exact if_pos (h (key, r) (by rw [hsplit]; simp)) }
  exact Node.forall_pieces hall path n p hp

namespace Job

/-- What a document sends has its items carried out, up to a picture that is refused. -/
theorem printNode_sends (j : Job) (hj : j.format.size.Known) (images : ImageCache)
    (root : Node) :
    let ps := root.pieces images j.paperWidth j.format []
    ∃ cs, Sent j cs (j.printNode images root).1 ∧
      List.Forall₂ Item.DoneBy ((Piece.reached ps).flatMap (Piece.items j.page j.dialect))
        (executed j.format cs) := by
  intro ps
  obtain ⟨cs, hsent, halike⟩ := run_alike ((Piece.reached ps).flatMap Piece.operations) j
  have hknown : ∀ p ∈ Piece.reached ps, p.Known := fun p hp =>
    Node.forall_pieces (Piece.known_everywhere hj images j.paperWidth) [] root p
      (Piece.mem_of_mem_reached hp)
  rw [printNode_eq_run]
  refine ⟨cs, hsent, ?_⟩
  rw [halike.executed]
  exact (draws_pieces hknown j.format trivial).1

/-- **The walk means what a reading of the tree without any memory means.**  Whatever
was printed before, the commands of a document have a printer carry out the items of
its pieces in order and nothing else, each text and picture in the formatting of its
path.  Printing stops at the first picture whose data does not agree with its
dimensions, and only there. -/
theorem printNode_reads_tree (paperWidth : Nat) (page : CodePage) (d : Dialect)
    (history : List Operation) (images : ImageCache) (root : Node) :
    let j := (start paperWidth page d).run history
    let ps := root.pieces images paperWidth j.format []
    (∃ cs, Sent j cs (j.printNode images root).1 ∧
      List.Forall₂ Item.DoneBy ((Piece.reached ps).flatMap (Piece.items page d))
        (executed j.format cs)) ∧
    (j.printNode images root).2 = ps.findSome? Piece.refusal? ∧
    ((∀ e ∈ images, e.2.Consistent) →
      Piece.reached ps = ps ∧ (j.printNode images root).2 = none) := by
  intro j ps
  obtain ⟨cs, hrun, -⟩ := run_alike history (start paperWidth page d)
  have hpaper : j.paperWidth = paperWidth := hrun.paperWidth
  have hpage : j.page = page := hrun.page
  have hdialect : j.dialect = d := hrun.dialect
  have hj : j.format.size.Known := run_known history _ CharacterSize.known_normal
  have hsends := printNode_sends j hj images root
  have hrefusal : (j.printNode images root).2 = ps.findSome? Piece.refusal? := by
    rw [printNode_eq_run, hpaper]
  rw [hpaper, hpage, hdialect] at hsends
  refine ⟨hsends, hrefusal, ?_⟩
  intro himages
  have hnone : ∀ p ∈ ps, p.refusal? = none := fun p hp =>
    Node.refusal?_of_mem_pieces himages hp
  exact ⟨Piece.reached_eq_self hnone, by rw [hrefusal, List.findSome?_eq_none_iff.mpr hnone]⟩

end Job

end Receipt
