/-
What acts at the start of a line is sent at the start of one.

An alignment asked for in the middle of a line has no effect on it, and a printer does
not say so: the job would believe in an alignment that is not in force.  Feeds, cuts and
pictures would cut a line off.  So a document must not send any of these while a line is
pending, that is begun and not ended.

`Orderly` carries this from the commands of a piece to those of a document: no line is
pending where one must not be, and what is pending at the end is known.  Every piece
starts and ends with no line pending.  Inside a line of text the argument is another one.
All runs on a line have one alignment, so it is in force from the first run on, and what
is in force is not sent.
-/
import Receipt.Convert
import Receipt.Proofs.Walk.Does

namespace Receipt

/-! ### Pending lines -/

namespace Command

/-- Whether a command acts at the start of a line only. -/
def actsAtLineStart : Command → Bool
  | .align _ | .feed _ | .cut _ _ | .raster _ => true
  | _ => false

/-- Whether a line is pending after a command, given whether one was before.  Text leaves
it pending unless it ends with a line break. -/
def pending (before : Bool) : Command → Bool
  | .reset | .feed _ | .cut _ _ | .raster _ => false
  | .text s _ =>
    match s.toList.getLast? with
    | none => before
    | some c => c != '\n'
  | _ => before

theorem pending_mode {c : Command} (h : c.isMode = true) (before : Bool) :
    c.pending before = before := by
  cases c with
  | align a => rfl
  | size s => rfl
  | bold on => rfl
  | _ => simp [isMode] at h

end Command

/-- Whether a line is pending after commands. -/
def pendingAfter (before : Bool) (cs : List Command) : Bool :=
  cs.foldl Command.pending before

theorem pendingAfter_append (before : Bool) (as bs : List Command) :
    pendingAfter before (as ++ bs) = pendingAfter (pendingAfter before as) bs := by
  unfold pendingAfter
  rw [List.foldl_append]

/-- What acts at the start of a line comes when none is pending, and `after` is whether one
is pending in the end. -/
structure Orderly (before : Bool) (cs : List Command) (after : Bool) : Prop where
  atStart : ∀ as c bs, cs = as ++ c :: bs → c.actsAtLineStart = true →
    pendingAfter before as = false
  after : pendingAfter before cs = after

namespace Orderly

variable {p q r : Bool}

theorem nil (p : Bool) : Orderly p [] p :=
  ⟨fun as c bs h => by simp at h, rfl⟩

theorem singleton {c : Command} (h : c.actsAtLineStart = true → p = false) :
    Orderly p [c] (c.pending p) where
  atStart as c' bs hsplit hc' := by
    cases as with
    | nil =>
        obtain ⟨rfl, -⟩ := List.cons.inj hsplit
        exact h hc'
    | cons a rest => simp at hsplit
  after := rfl

theorem append {as bs : List Command} (ha : Orderly p as q) (hb : Orderly q bs r) :
    Orderly p (as ++ bs) r where
  atStart xs c ys hsplit hc := by
    rcases split_append hsplit with ⟨zs, has, -⟩ | ⟨zs, rfl, hbs⟩
    · exact ha.atStart xs c zs has hc
    · rw [pendingAfter_append, ha.after]
      exact hb.atStart zs c ys hbs hc
  after := by rw [pendingAfter_append, ha.after, hb.after]

end Orderly

namespace Job

/-- Whether a line is pending on the printer. -/
def pending (j : Job) : Bool :=
  pendingAfter false j.commands.toList

/-- A step whose commands are orderly. -/
def Keeps (p : Bool) (j j' : Job) (q : Bool) : Prop :=
  ∃ cs, Sent j cs j' ∧ Orderly p cs q

variable {p q r : Bool}

theorem Keeps.refl (p : Bool) (j : Job) : Keeps p j j p :=
  ⟨[], Sent.refl j, Orderly.nil p⟩

theorem Keeps.trans {j j' j'' : Job} (h : Keeps p j j' q) (h' : Keeps q j' j'' r) :
    Keeps p j j'' r := by
  obtain ⟨as, hsa, hoa⟩ := h
  obtain ⟨bs, hsb, hob⟩ := h'
  exact ⟨as ++ bs, hsa.trans hsb, hoa.append hob⟩

/-! ### Operations -/

theorem enter_keeps (j : Job) {c : Command} (hc : c.isMode = true)
    (h : c.actsAtLineStart = true → p = false) : Keeps p j (j.enter c) p := by
  refine ⟨change j.format c, enter_sent j hc, ?_⟩
  unfold change
  split
  · exact Orderly.nil p
  · have hone := Orderly.singleton h
    rw [Command.pending_mode hc] at hone
    exact hone

/-- An alignment may be asked for at the start of a line, and any time if it is in force:
then it is not sent. -/
theorem setAlign_keeps (j : Job) {a : Alignment} (h : p = false ∨ j.format.align = a) :
    Keeps p j (j.setAlign a) p := by
  rcases h with hstart | hforce
  · rw [setAlign_eq_enter]
    exact enter_keeps j rfl fun _ => hstart
  · rw [setAlign, if_pos hforce]
    exact Keeps.refl p j

theorem setSize_keeps (j : Job) (s : CharacterSize) : Keeps p j (j.setSize s) p := by
  rw [setSize_eq_enter]
  exact enter_keeps j rfl fun h => by simp [Command.actsAtLineStart] at h

theorem setBold_keeps (j : Job) (on : Bool) : Keeps p j (j.setBold on) p := by
  rw [setBold_eq_enter]
  exact enter_keeps j rfl fun h => by simp [Command.actsAtLineStart] at h

theorem apply_keeps (j : Job) {f : Format} (h : p = false ∨ j.format.align = f.align) :
    Keeps p j (j.apply f) p :=
  ((setAlign_keeps j h).trans (setSize_keeps _ _)).trans (setBold_keeps _ _)

theorem text_keeps (j : Job) (s : String) : ∃ q, Keeps p j (j.text s) q := by
  cases h : s.isEmpty with
  | true => exact ⟨p, by rw [text_empty j h]; exact Keeps.refl p j⟩
  | false =>
      refine ⟨_, _, text_sent j h, Orderly.singleton ?_⟩
      simp [Command.actsAtLineStart]

/-- A line break ends the line that is pending. -/
theorem newline_keeps (j : Job) : Keeps p j j.newline false := by
  refine ⟨_, text_sent j rfl, ?_⟩
  exact Orderly.singleton (c := .text "\n" j.page) (by simp [Command.actsAtLineStart])

theorem feed_keeps (j : Job) (lines : Nat) : Keeps false j (j.feed lines) false :=
  ⟨_, feed_sent j lines, Orderly.singleton fun _ => rfl⟩

theorem cut_keeps (j : Job) (c : Cut) (lines : Nat) : Keeps false j (j.cut c lines) false :=
  ⟨_, cut_sent j c lines, Orderly.singleton fun _ => rfl⟩

theorem reset_keeps (j : Job) : Keeps p j j.reset false :=
  ⟨_, reset_sent j, Orderly.singleton (by simp [Command.actsAtLineStart])⟩

theorem selectCodePage_keeps (j : Job) : Keeps p j j.selectCodePage p := by
  refine ⟨_, selectCodePage_sends j, ?_⟩
  unfold Operation.codePageCommands
  split
  · exact Orderly.singleton (by simp [Command.actsAtLineStart])
  · exact Orderly.nil p

theorem raster_keeps {j j' : Job} {r : Raster} (h : j.raster r = .ok j') :
    Keeps false j j' false := by
  have hj' : j.perform (.raster r) = j' := by simp only [perform, h]
  refine ⟨_, hj' ▸ raster_sends j r, ?_⟩
  unfold Operation.rasterCommands
  split
  · exact Orderly.singleton fun _ => rfl
  · exact Orderly.nil false

/-! ### Pieces -/

theorem format_text (j : Job) (s : String) : (j.text s).format = j.format := by
  unfold text
  split <;> rfl

/-- Runs of one alignment, at the start of a line or with the alignment in force: after the
first run it is. -/
theorem spans_keeps {align : Alignment} {runs : List Span}
    (hruns : ∀ s ∈ runs, s.format.align = align) (j : Job)
    (h : p = false ∨ j.format.align = align) : ∃ q, Keeps p j (runs.foldl span j) q := by
  induction runs generalizing j p with
  | nil => exact ⟨p, Keeps.refl p j⟩
  | cons s rest ih =>
      have hs : s.format.align = align := hruns s List.mem_cons_self
      have happly := apply_keeps j (f := s.format) (hs.symm ▸ h)
      obtain ⟨q, htext⟩ := text_keeps (p := p) (j.apply s.format) s.text
      have hforce : (j.span s).format.align = align := by
        rw [span, format_text, (apply_reaches j s.format).format]
        exact hs
      obtain ⟨r, hrest⟩ := ih (fun t ht => hruns t (List.mem_cons_of_mem s ht)) (j.span s)
        (p := q) (Or.inr hforce)
      exact ⟨r, (happly.trans htext).trans hrest⟩

/-- The runs of a composed line ask for no alignment. -/
theorem segments_keeps (l : Line) (j : Job) : ∃ q, Keeps p j (l.foldl segment j) q := by
  induction l generalizing j p with
  | nil => exact ⟨p, Keeps.refl p j⟩
  | cons s rest ih =>
      obtain ⟨q, htext⟩ := text_keeps (p := p) (j.setBold s.bold) s.text
      obtain ⟨r, hrest⟩ := ih (p := q) (j.segment s)
      exact ⟨r, ((setBold_keeps j s.bold).trans htext).trans hrest⟩

theorem line_keeps (j : Job) (l : Line) : Keeps p j (j.line l) false := by
  obtain ⟨q, hsegments⟩ := segments_keeps (p := p) l j
  exact hsegments.trans (newline_keeps _)

theorem composed_keeps (ls : List Line) (j : Job) : Keeps false j (ls.foldl line j) false := by
  induction ls generalizing j with
  | nil => exact Keeps.refl false j
  | cons l rest ih => exact (line_keeps j l).trans (ih (j.line l))

end Job

/-- The runs on a line have one alignment. -/
def Piece.Level : Piece → Prop
  | .line runs => ∃ align : Alignment, ∀ s ∈ runs, s.format.align = align
  | _ => True

theorem Piece.level_everywhere (images : ImageCache) (paperWidth : Nat) (base : Format) :
    Piece.Everywhere images paperWidth base Piece.Level where
  feed _ _ := trivial
  border _ _ := trivial
  line align runs hruns := by
    refine ⟨align, fun s hs => ?_⟩
    obtain ⟨-, path, hf⟩ := hruns s hs
    rw [hf]
  row _ _ := trivial
  picture _ _ _ _ := trivial

namespace Job

/-- **A piece starts and ends with no line pending.** -/
theorem piece_keeps (j : Job) {p : Piece} (hp : p.Level) :
    Keeps false j (j.piece p).1 false := by
  cases p with
  | feed lines => exact feed_keeps j lines
  | border f s =>
      obtain ⟨q, htext⟩ := text_keeps (p := false) (j.apply f) s
      exact ((apply_keeps j (Or.inl rfl)).trans htext).trans (newline_keeps _)
  | line runs =>
      obtain ⟨align, hruns⟩ := hp
      obtain ⟨q, hspans⟩ := spans_keeps (p := false) hruns j (Or.inl rfl)
      exact hspans.trans (newline_keeps _)
  | row size ls =>
      exact ((setAlign_keeps j (Or.inl rfl)).trans (setSize_keeps _ size)).trans
        (composed_keeps ls _)
  | picture f r =>
      have happly := apply_keeps j (p := false) (f := f) (Or.inl rfl)
      cases hr : (j.apply f).raster r with
      | ok j' =>
          rw [piece_picture hr]
          exact happly.trans (raster_keeps hr)
      | error e =>
          rw [piece_picture_refused hr]
          exact happly

theorem pieces_keeps (j : Job) {ps : List Piece} (hps : ∀ p ∈ ps, p.Level) :
    Keeps false j (j.pieces ps).1 false := by
  induction ps generalizing j with
  | nil => exact Keeps.refl false j
  | cons p rest ih =>
      have hfirst := piece_keeps j (hps p List.mem_cons_self)
      rcases hp : j.piece p with ⟨j', e?⟩
      rw [hp] at hfirst
      cases e? with
      | none =>
          rw [pieces_cons hp]
          exact hfirst.trans (ih j' fun q hq => hps q (List.mem_cons_of_mem p hq))
      | some e =>
          rw [pieces_cons_failed hp]
          exact hfirst

/-! ### Documents -/

theorem printNode_keeps (j : Job) (images : ImageCache) (root : Node) :
    Keeps false j (j.printNode images root).1 false := by
  rw [printNode_eq_pieces]
  exact pieces_keeps j (Node.forall_pieces (Piece.level_everywhere images j.paperWidth j.format)
    [] root)

end Job

namespace Convert

/-- The whole job, from the reset to the cut. -/
theorem renderJob_keeps {root : Node} {o : Options} {d : Dialect} {images : ImageCache}
    {job : Job} (h : renderJob root o d images = .ok job) :
    Job.Keeps false (Job.start o.paperWidth o.encoding d) job false := by
  unfold renderJob at h
  dsimp only at h
  have hpage : ∀ j : Job,
      Job.Keeps false j (if o.selectCodePage then j.selectCodePage else j) false := by
    intro j
    split
    · exact Job.selectCodePage_keeps j
    · exact Job.Keeps.refl false j
  have hready := (Job.reset_keeps (p := false) (Job.start o.paperWidth o.encoding d)).trans
    (hpage _)
  have hprinted := hready.trans (Job.printNode_keeps _ images root)
  split at h
  · simp at h
  · rename_i j hj
    rw [hj] at hprinted
    obtain rfl := Except.ok.inj h
    cases o.cut with
    | none => exact hprinted
    | some c => exact hprinted.trans (Job.cut_keeps j c o.feedBeforeCut)

end Convert

/-- **Nothing that acts at the start of a line is sent in the middle of one.**  Printing a
document while no line is pending sends alignments, feeds and pictures only while none is,
and leaves none pending, also when it stops at a picture that is refused.  The same is true
of a whole job with the cut at its end. -/
theorem sent_at_line_start (images : ImageCache) (root : Node) :
    (∀ j : Job, j.pending = false →
      (∃ cs, Job.Sent j cs (j.printNode images root).1 ∧
        ∀ as c bs, cs = as ++ c :: bs → c.actsAtLineStart = true →
          pendingAfter false (j.commands.toList ++ as) = false) ∧
      (j.printNode images root).1.pending = false) ∧
    ∀ (o : Options) (d : Dialect) (job : Job), Convert.renderJob root o d images = .ok job →
      (∀ as c bs, job.commands.toList = as ++ c :: bs → c.actsAtLineStart = true →
        pendingAfter false as = false) ∧
      job.pending = false := by
  constructor
  · intro j hj
    have hj' : pendingAfter false j.commands.toList = false := hj
    obtain ⟨cs, hsent, horderly⟩ := j.printNode_keeps images root
    refine ⟨⟨cs, hsent, ?_⟩, ?_⟩
    · intro as c bs hsplit hc
      rw [pendingAfter_append, hj']
      exact horderly.atStart as c bs hsplit hc
    · unfold Job.pending
      rw [hsent.commands, pendingAfter_append, hj']
      exact horderly.after
  · intro o d job hjob
    obtain ⟨cs, hsent, horderly⟩ := Convert.renderJob_keeps hjob
    have hcommands : job.commands.toList = cs := hsent.commands
    refine ⟨?_, ?_⟩
    · rw [hcommands]
      exact horderly.atStart
    · unfold Job.pending
      rw [hcommands]
      exact horderly.after

end Receipt
