/-
What changes of mode are for.

The printer is brought to a formatting right before something is printed in it, so that a
document does not end with modes that nothing is printed in.  Of a list of commands this
is `Purposeful`: behind every change of mode there comes text or a raster.

There is one piece that changes modes and may print nothing, a row that has no lines.
Its alignment and size are asked for before its lines are, and are sent in vain if nothing
is printed behind it either.  Apart from that the walk keeps its word, and the main result
is an equivalence: the commands of a document are purposeful exactly if the rows without
lines behind all that is printed ask for nothing but what is in force.
-/
import Receipt.Printer.EscPos
import Receipt.Proofs.Walk.Printed

namespace Receipt

/-! ### Commands -/

/-- Whether a command prints something. -/
def Command.isContent : Command → Bool
  | .text _ _ | .raster _ => true
  | _ => false

theorem Command.isMode_eq_false_of_isContent {c : Command} (h : c.isContent = true) :
    c.isMode = false := by
  cases c with
  | text s page => rfl
  | raster r => rfl
  | _ => simp [isContent] at h

/-- Whether any of the commands prints something. -/
def HasContent (cs : List Command) : Prop :=
  ∃ c ∈ cs, c.isContent = true

/-- Behind every change of mode something is printed. -/
def Purposeful (cs : List Command) : Prop :=
  ∀ as c bs, cs = as ++ c :: bs → c.isMode = true → HasContent bs

theorem hasContent_append {as bs : List Command} :
    HasContent (as ++ bs) ↔ HasContent as ∨ HasContent bs := by
  unfold HasContent
  simp only [List.mem_append, or_and_right, exists_or]

theorem purposeful_nil : Purposeful [] := by
  intro as c bs h
  simp at h

/-- The first of two lists may leave it to the second to print. -/
theorem purposeful_append {as bs : List Command} :
    Purposeful (as ++ bs) ↔ (HasContent bs ∨ Purposeful as) ∧ Purposeful bs := by
  constructor
  · intro h
    refine ⟨?_, fun xs c ys hsplit hc => h (as ++ xs) c ys (by simp [hsplit]) hc⟩
    by_cases hbs : HasContent bs
    · exact Or.inl hbs
    · refine Or.inr fun xs c ys hsplit hc => ?_
      have hfollowed := h xs c (ys ++ bs) (by simp [hsplit]) hc
      exact (hasContent_append.mp hfollowed).resolve_right hbs
  · rintro ⟨hfirst, hsecond⟩ xs c ys hsplit hc
    rcases split_append hsplit with ⟨zs, has, rfl⟩ | ⟨zs, -, hbs⟩
    · rcases hfirst with hbs | hfirst
      · exact hasContent_append.mpr (Or.inr hbs)
      · exact hasContent_append.mpr (Or.inl (hfirst xs c zs has hc))
    · exact hsecond zs c ys hbs hc

/-- Where nothing is printed, no change of mode is for anything. -/
theorem purposeful_iff_of_silent {cs : List Command} (h : ¬HasContent cs) :
    Purposeful cs ↔ ∀ c ∈ cs, c.isMode = false := by
  constructor
  · intro hcs c hc
    by_contra hmode
    obtain ⟨as, bs, rfl⟩ := List.append_of_mem hc
    have hbs := hcs as c bs rfl (by simpa using hmode)
    refine h (hasContent_append.mpr (Or.inr ?_))
    obtain ⟨d, hd, hcontent⟩ := hbs
    exact ⟨d, List.mem_cons_of_mem c hd, hcontent⟩
  · intro hcs as c bs hsplit hc
    have hmode := hcs c (by simp [hsplit])
    rw [hc] at hmode
    simp at hmode

theorem not_hasContent_of_modes {cs : List Command} (h : ∀ c ∈ cs, c.isMode = true) :
    ¬HasContent cs := by
  rintro ⟨c, hc, hcontent⟩
  have hmode := Command.isMode_eq_false_of_isContent hcontent
  rw [h c hc] at hmode
  simp at hmode

/-- Changes of modes with nothing behind them are for nothing. -/
theorem purposeful_iff_of_modes {cs : List Command} (h : ∀ c ∈ cs, c.isMode = true) :
    Purposeful cs ↔ cs = [] := by
  rw [purposeful_iff_of_silent (not_hasContent_of_modes h), List.eq_nil_iff_forall_not_mem]
  constructor
  · intro hcs c hc
    have hmode := h c hc
    rw [hcs c hc] at hmode
    simp at hmode
  · intro hnone c hc
    exact absurd hc (hnone c)

theorem purposeful_singleton {c : Command} (h : c.isMode = false) : Purposeful [c] := by
  intro as c' bs hsplit hc'
  have hmem : c' ∈ [c] := by simp [hsplit]
  obtain rfl := List.mem_singleton.mp hmem
  rw [hc'] at h
  simp at h

theorem change_eq_nil_iff {f : Format} {c : Command} : change f c = [] ↔ c.modes f = f := by
  unfold change
  split <;> simp [*]

theorem isMode_of_mem_change {f : Format} {c d : Command} (hc : c.isMode = true)
    (hd : d ∈ change f c) : d.isMode = true := by
  unfold change at hd
  split at hd
  · simp at hd
  · obtain rfl := List.mem_singleton.mp hd
    exact hc

/-! ### Pieces -/

namespace Piece

/-- Whether anything is printed for a piece: for a row, whether it has lines. -/
def prints : Piece → Bool
  | .feed _ => false
  | .row _ ls => !ls.isEmpty
  | _ => true

/-- A piece that sends nothing in vain when nothing is printed behind it, given the
formatting in force.  For a row without lines that formatting has to be its own. -/
def Idle (f : Format) : Piece → Prop
  | .row size [] => f.align = .left ∧ f.size = size.clamped
  | _ => True

theorem idle_of_prints {p : Piece} (h : p.prints = true) (f : Format) : p.Idle f := by
  cases p with
  | row size ls =>
      cases ls with
      | nil => simp [prints] at h
      | cons l rest => trivial
  | _ => trivial

theorem prints_of_mem_feeds {lines : Nat} {p : Piece} (h : p ∈ feeds lines) :
    p.prints = false := by
  unfold feeds at h
  split at h
  · simp at h
  · obtain rfl := List.mem_singleton.mp h
    rfl

/-- Printing a piece ends with a line break or a raster. -/
theorem operations_eq_concat {p : Piece} (h : p.prints = true) :
    ∃ ops op, p.operations = ops ++ [op] ∧
      (op = .newline ∨ ∃ f r, p = .picture f r ∧ op = .raster r) := by
  cases p with
  | feed lines => simp [prints] at h
  | border f s => exact ⟨_, _, rfl, Or.inl rfl⟩
  | line runs => exact ⟨_, _, rfl, Or.inl rfl⟩
  | row size ls =>
      have hne : ls ≠ [] := by
        rintro rfl
        simp [prints] at h
      refine ⟨[.align .left, .size size] ++ (ls.dropLast.flatMap lineOperations
        ++ (ls.getLast hne).flatMap segmentOperations), .newline, ?_, Or.inl rfl⟩
      have hsplit : ls.flatMap lineOperations
          = ls.dropLast.flatMap lineOperations ++ lineOperations (ls.getLast hne) := by
        conv_lhs => rw [← List.dropLast_concat_getLast hne]
        rw [List.flatMap_append, List.flatMap_singleton]
      rw [operations, hsplit, lineOperations, List.append_assoc, List.append_assoc]
  | picture f r => exact ⟨[.apply f], .raster r, rfl, Or.inr ⟨f, r, rfl, rfl⟩⟩

end Piece

namespace Job

/-- What a step sends: whether something is printed, and on which condition all changes of
mode are for something, wherever the job stands. -/
def Spends (j j' : Job) (prints : Prop) (idle : Prop) : Prop :=
  ∃ cs, Sent j cs j' ∧ (HasContent cs ↔ prints) ∧ (Purposeful cs ↔ idle)

/-- Operations with something printed at their end. -/
theorem run_concat_spends (j : Job) (ops : List Operation) {op : Operation} {c : Command}
    (hc : c.isContent = true) (hop : Sent (j.run ops) [c] ((j.run ops).perform op)) :
    Spends j (j.run (ops ++ [op])) True True := by
  obtain ⟨cs, hs, -⟩ := run_alike ops j
  have hcontent : HasContent [c] := ⟨c, List.mem_singleton_self c, hc⟩
  have hmode := Command.isMode_eq_false_of_isContent hc
  refine ⟨cs ++ [c], ?_, ?_, ?_⟩
  · rw [run_append]
    exact hs.trans hop
  · exact iff_true_intro (hasContent_append.mpr (Or.inr hcontent))
  · exact iff_true_intro (purposeful_append.mpr ⟨Or.inl hcontent, purposeful_singleton hmode⟩)

/-- A piece that is printed sends nothing in vain. -/
theorem piece_spends_of_prints (j : Job) {p : Piece} (hd : j.dialect.supports .imagePrinting = true)
    (hp : p.refusal? = none) (hprints : p.prints = true) :
    Spends j (j.piece p).1 True True := by
  obtain ⟨ops, op, hops, hop⟩ := Piece.operations_eq_concat hprints
  rw [piece_run, hops]
  rcases hop with rfl | ⟨f, r, rfl, rfl⟩
  · exact run_concat_spends j ops (c := .text "\n" (j.run ops).page) rfl (text_sent _ rfl)
  · have hconsistent : r.Consistent := by
      by_contra hr
      simp [Piece.refusal?, hr] at hp
    have hraster := raster_sends (j.run ops) r
    obtain ⟨cs, hs, -⟩ := run_alike ops j
    rw [hs.dialect, Operation.rasterCommands, if_pos ⟨hconsistent, hd⟩] at hraster
    exact run_concat_spends j ops rfl hraster

/-- A row without lines sends its alignment and its size, unless they are in force. -/
theorem empty_row_spends (j : Job) (size : CharacterSize) :
    Spends j (j.piece (.row size [])).1 False ((Piece.row size []).Idle j.format) := by
  have halign := enter_sent j (c := .align .left) rfl
  have hsize := enter_sent (j.enter (.align .left)) (c := .size size.clamped) rfl
  rw [(enter_reaches j (c := .align .left) rfl).format] at hsize
  have hmodes : ∀ c ∈ change j.format (.align .left)
      ++ change ((Command.align .left).modes j.format) (.size size.clamped), c.isMode = true := by
    intro c hc
    rcases List.mem_append.mp hc with hc | hc
    · exact isMode_of_mem_change rfl hc
    · exact isMode_of_mem_change rfl hc
  refine ⟨_, ?_, iff_false_intro (not_hasContent_of_modes hmodes), ?_⟩
  · show Sent j _ ((j.setAlign .left).setSize size)
    rw [setAlign_eq_enter, setSize_eq_enter]
    exact halign.trans hsize
  · rw [purposeful_iff_of_modes hmodes, List.append_eq_nil_iff, change_eq_nil_iff,
      change_eq_nil_iff]
    constructor
    · rintro ⟨ha, hs⟩
      exact ⟨(congrArg Format.align ha).symm, (congrArg Format.size hs).symm⟩
    · rintro ⟨ha, hs⟩
      exact ⟨ha ▸ rfl, hs ▸ rfl⟩

/-- **What a piece sends in vain** when nothing is printed behind it. -/
theorem piece_spends (j : Job) {p : Piece} (hd : j.dialect.supports .imagePrinting = true)
    (hp : p.refusal? = none) :
    Spends j (j.piece p).1 (p.prints = true) (p.Idle j.format) := by
  by_cases hprints : p.prints = true
  · obtain ⟨cs, hs, hcontent, hpurposeful⟩ := piece_spends_of_prints j hd hp hprints
    refine ⟨cs, hs, ?_, ?_⟩
    · rw [hcontent, hprints]
      exact (eq_self_iff_true true).symm
    · rw [hpurposeful]
      exact (iff_true_intro (Piece.idle_of_prints hprints j.format)).symm
  · rw [eq_false hprints]
    cases p with
    | feed lines =>
        refine ⟨_, feed_sent j lines, iff_false_intro ?_, ?_⟩
        · rintro ⟨c, hc, hcontent⟩
          obtain rfl := List.mem_singleton.mp hc
          simp [Command.isContent] at hcontent
        · exact iff_of_true (purposeful_singleton rfl) trivial
    | row size ls =>
        obtain rfl : ls = [] := by simpa [Piece.prints] using hprints
        exact empty_row_spends j size
    | _ => simp [Piece.prints] at hprints

/-- The pieces behind all that is printed send nothing in vain. -/
def IdleBehind (j : Job) (ps : List Piece) : Prop :=
  ∀ before p after, ps = before ++ p :: after → (∀ q ∈ after, q.prints = false) →
    p.Idle (j.pieces before).1.format

theorem idleBehind_cons {j j' : Job} {p : Piece} (h : j.piece p = (j', none))
    (rest : List Piece) :
    j.IdleBehind (p :: rest) ↔
      ((∃ q ∈ rest, q.prints = true) ∨ p.Idle j.format) ∧ j'.IdleBehind rest := by
  constructor
  · intro hidle
    constructor
    · by_cases hrest : ∃ q ∈ rest, q.prints = true
      · exact Or.inl hrest
      · refine Or.inr (hidle [] p rest rfl fun q hq => ?_)
        by_contra hprints
        exact hrest ⟨q, hq, by simpa using hprints⟩
    · intro before q after hsplit hafter
      have hq := hidle (p :: before) q after (by rw [hsplit]; rfl) hafter
      rw [pieces_cons h] at hq
      exact hq
  · rintro ⟨hfirst, hrest⟩ before q after hsplit hafter
    cases before with
    | nil =>
        obtain ⟨rfl, rfl⟩ := List.cons.inj hsplit
        refine hfirst.resolve_left ?_
        rintro ⟨r, hr, hprints⟩
        rw [hafter r hr] at hprints
        simp at hprints
    | cons b before =>
        obtain ⟨rfl, hsplit'⟩ := List.cons.inj hsplit
        rw [pieces_cons h]
        exact hrest before q after hsplit' hafter

theorem pieces_spends (j : Job) {ps : List Piece}
    (hd : j.dialect.supports .imagePrinting = true) (hps : ∀ p ∈ ps, p.refusal? = none) :
    Spends j (j.pieces ps).1 (∃ p ∈ ps, p.prints = true) (j.IdleBehind ps) := by
  induction ps generalizing j with
  | nil =>
      refine ⟨[], Sent.refl j, ?_, ?_⟩
      · simp [HasContent]
      · exact iff_of_true purposeful_nil fun before p after h => by simp at h
  | cons p rest ih =>
      have hp := hps p List.mem_cons_self
      obtain ⟨cs, hs, hcontent, hpurposeful⟩ := piece_spends j hd hp
      have hpiece : j.piece p = ((j.piece p).1, none) := Prod.ext rfl ((piece_refusal j p).trans hp)
      obtain ⟨ds, hrest, hcontent', hpurposeful'⟩ := ih (j.piece p).1 (by rw [hs.dialect]; exact hd)
        fun q hq => hps q (List.mem_cons_of_mem p hq)
      refine ⟨cs ++ ds, ?_, ?_, ?_⟩
      · rw [pieces_cons hpiece]
        exact hs.trans hrest
      · rw [hasContent_append, hcontent, hcontent']
        simp
      · rw [purposeful_append, hcontent', hpurposeful, hpurposeful', idleBehind_cons hpiece]

/-! ### Documents -/

/-- **Modes are changed for something that is printed, but for rows without lines.**  The
commands of a document are purposeful exactly if every row without lines, behind which
nothing is printed, finds the left alignment and its own size in force.  A document that
prints nothing then changes no mode, whatever its styles. -/
theorem printNode_purposeful_iff (j : Job) (hd : j.dialect.supports .imagePrinting = true)
    (images : ImageCache) (himages : ∀ e ∈ images, e.2.Consistent) (root : Node) :
    let ps := root.pieces images j.paperWidth j.format []
    ∃ cs, Sent j cs (j.printNode images root).1 ∧
      (HasContent cs ↔ ∃ p ∈ ps, p.prints = true) ∧
      (Purposeful cs ↔ ∀ before size after, ps = before ++ .row size [] :: after →
        (∀ p ∈ after, p.prints = false) →
        (j.pieces before).1.format.align = .left ∧
          (j.pieces before).1.format.size = size.clamped) ∧
      (Purposeful cs → (∀ p ∈ ps, p.prints = false) → ∀ c ∈ cs, c.isMode = false) := by
  intro ps
  have hps : ∀ p ∈ ps, p.refusal? = none := fun p hp => Node.refusal?_of_mem_pieces himages hp
  obtain ⟨cs, hs, hcontent, hpurposeful⟩ := pieces_spends j hd hps
  refine ⟨cs, ?_, hcontent, ?_, ?_⟩
  · rw [printNode_eq_pieces]
    exact hs
  · rw [hpurposeful]
    constructor
    · intro hidle before size after hsplit hafter
      exact hidle before (.row size []) after hsplit hafter
    · intro hrows before p after hsplit hafter
      by_cases hprints : p.prints = true
      · exact Piece.idle_of_prints hprints _
      · cases p with
        | row size ls =>
            obtain rfl : ls = [] := by simpa [Piece.prints] using hprints
            exact hrows before size after hsplit hafter
        | _ => trivial
  · intro hcs hnothing
    have hsilent : ¬HasContent cs := by
      rw [hcontent]
      rintro ⟨p, hp, hprints⟩
      rw [hnothing p hp] at hprints
      simp at hprints
    exact (purposeful_iff_of_silent hsilent).mp hcs

/-- A picture in the middle of the paper. -/
def centredLogo : Node :=
  (Node.ofImage "logo").withStyle (Dict.ofList [("textAlign", .string "center")])

theorem printNode_purposeful_logo :
    let j := start 48 .cp860 EscPos.dialect
    let images : ImageCache := [(⟨"logo", 576⟩, Raster.blank 8 1)]
    j.dialect.supports .imagePrinting = true ∧ (∀ e ∈ images, e.2.Consistent) ∧
    ∃ cs, Sent j cs (j.printNode images centredLogo).1 ∧ Purposeful cs := by
  intro j images
  have hd : j.dialect.supports .imagePrinting = true := rfl
  have himages : ∀ e ∈ images, e.2.Consistent := by
    intro e he
    obtain rfl := List.mem_singleton.mp he
    exact Raster.consistent_blank 8 1
  obtain ⟨cs, hs, -, hpurposeful, -⟩ := printNode_purposeful_iff j hd images himages centredLogo
  refine ⟨hd, himages, cs, hs, hpurposeful.mpr fun before size after hsplit _ => ?_⟩
  -- No piece of an image is a row.
  have hrow : Piece.row size [] ∈ centredLogo.pieces images j.paperWidth j.format [] := by
    rw [hsplit]
    exact List.mem_append_right before List.mem_cons_self
  rw [Node.pieces_image images _ _ [] rfl] at hrow
  simp only [Piece.framed, Piece.feeds, Piece.borders, Piece.pictures, List.mem_append] at hrow
  rcases hrow with hrow | hrow | hrow | hrow | hrow
  all_goals split at hrow <;> simp at hrow

theorem format_pieces_feeds (j : Job) (lines : Nat) :
    (j.pieces (Piece.feeds lines)).1.format = j.format := by
  unfold Piece.feeds
  split <;> rfl

/-- A row in large print that holds nothing. -/
def largeEmptyRow : Node :=
  (Node.view []).withStyle
    (Dict.ofList [("flexDirection", .string "row"), ("fontSize", .number (.int 30))])

/-- Its size is sent, and nothing is printed in it. -/
theorem printNode_largeEmptyRow_in_vain :
    let j := start 48 .cp860 EscPos.dialect
    j.dialect.supports .imagePrinting = true ∧
    ∀ cs, Sent j cs (j.printNode [] largeEmptyRow).1 → ¬Purposeful cs := by
  intro j
  have hd : j.dialect.supports .imagePrinting = true := rfl
  have hpieces : largeEmptyRow.pieces [] 48 .default [] =
      Piece.feeds largeEmptyRow.style.spacing.top ++
        .row ⟨2, 2⟩ [] :: Piece.feeds largeEmptyRow.style.spacing.bottom := by
    have hrole : largeEmptyRow.role = .row := by decide
    have hsize : (Format.default.along ([] ++ [largeEmptyRow.style])).size = ⟨2, 2⟩ := by decide
    have htop : largeEmptyRow.style.border? "borderTop" = none := by decide
    have hbottom : largeEmptyRow.style.border? "borderBottom" = none := by decide
    rw [Node.pieces_row [] 48 .default [] hrole, Piece.rows, hsize]
    unfold Piece.framed Piece.borders
    rw [htop, hbottom]
    rfl
  refine ⟨hd, fun cs hcs hpurposeful => ?_⟩
  have hps : ∀ p ∈ largeEmptyRow.pieces [] 48 .default [], p.refusal? = none := by
    intro p hp
    exact Node.refusal?_of_mem_pieces (by simp) hp
  obtain ⟨cs', hcs', -, hiff⟩ := pieces_spends j hd hps
  rw [printNode_eq_pieces] at hcs
  obtain rfl : cs' = cs := List.append_cancel_left (hcs'.commands.symm.trans hcs.commands)
  have hidle := hiff.mp hpurposeful _ _ _ hpieces fun p hp => Piece.prints_of_mem_feeds hp
  rw [format_pieces_feeds] at hidle
  exact absurd hidle.2 (by decide)

end Job

end Receipt
