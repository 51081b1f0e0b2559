/-
The walk prints the pieces of a document, one after the other.

`Job.pieces` prints pieces without knowing of documents, and stops at a picture that
is refused.  To a job the pieces are operations, so all that holds of runs holds of
documents.

A step of the walk `Does` a list of pieces if it is the same as printing them, wherever
it starts with a given formatting wanted.  That includes that what is wanted above is as
it was afterwards, whether the step failed or not: printing pieces does not touch it.
So steps compose without any more being said about them, and the walk follows the tree.
-/
import Receipt.Proofs.Job.Run
import Receipt.Proofs.Walk.Pieces

namespace Receipt

/-! ### Printing pieces -/

namespace Job

/-- A job with a piece printed, and why that failed if it did. -/
def piece (j : Job) : Piece → Job × Option Error
  | .feed lines => (j.feed lines, none)
  | .border f s => (((j.apply f).text s).newline, none)
  | .line runs => ((runs.foldl span j).newline, none)
  | .row size ls => (j.lines size ls, none)
  | .picture f r =>
    match (j.apply f).raster r with
    | .ok j' => (j', none)
    | .error e => (j.apply f, some e)

/-- A job with pieces printed, up to one that fails. -/
def pieces (j : Job) : List Piece → Job × Option Error
  | [] => (j, none)
  | p :: rest =>
    match j.piece p with
    | (j', none) => j'.pieces rest
    | (j', some e) => (j', some e)

theorem pieces_cons {j j' : Job} {p : Piece} (h : j.piece p = (j', none)) (ps : List Piece) :
    j.pieces (p :: ps) = j'.pieces ps := by
  simp only [pieces, h]

theorem pieces_cons_failed {j j' : Job} {p : Piece} {e : Error} (h : j.piece p = (j', some e))
    (ps : List Piece) : j.pieces (p :: ps) = (j', some e) := by
  simp only [pieces, h]

theorem pieces_singleton (j : Job) (p : Piece) : j.pieces [p] = j.piece p := by
  rcases h : j.piece p with ⟨j', e?⟩
  cases e? with
  | none => exact pieces_cons h []
  | some e => exact pieces_cons_failed h []

theorem pieces_append {j j' : Job} {ps : List Piece} (h : j.pieces ps = (j', none))
    (qs : List Piece) : j.pieces (ps ++ qs) = j'.pieces qs := by
  induction ps generalizing j with
  | nil =>
      obtain ⟨rfl, -⟩ := Prod.mk.inj h
      rfl
  | cons p rest ih =>
      rcases hp : j.piece p with ⟨k, e?⟩
      cases e? with
      | none =>
          rw [pieces_cons hp] at h
          rw [List.cons_append, pieces_cons hp, ih h]
      | some e =>
          rw [pieces_cons_failed hp] at h
          simp at h

theorem pieces_append_failed {j j' : Job} {ps : List Piece} {e : Error}
    (h : j.pieces ps = (j', some e)) (qs : List Piece) :
    j.pieces (ps ++ qs) = (j', some e) := by
  induction ps generalizing j with
  | nil => simp [pieces] at h
  | cons p rest ih =>
      rcases hp : j.piece p with ⟨k, e?⟩
      cases e? with
      | none =>
          rw [pieces_cons hp] at h
          rw [List.cons_append, pieces_cons hp, ih h]
      | some f =>
          rw [pieces_cons_failed hp] at h
          rw [List.cons_append, pieces_cons_failed hp, h]

theorem piece_picture {j j' : Job} {f : Format} {r : Raster} (h : (j.apply f).raster r = .ok j') :
    j.piece (.picture f r) = (j', none) := by
  simp only [piece, h]

theorem piece_picture_refused {j : Job} {f : Format} {r : Raster} {e : Error}
    (h : (j.apply f).raster r = .error e) :
    j.piece (.picture f r) = (j.apply f, some e) := by
  simp only [piece, h]

/-! ### Pieces as operations -/

theorem run_append (j : Job) (as bs : List Operation) :
    j.run (as ++ bs) = (j.run as).run bs := by
  unfold run
  rw [List.foldl_append]

/-- Operations taken for the items of a list are steps taken for them. -/
theorem run_flatMap {α : Type} (f : α → List Operation) (xs : List α) (j : Job) :
    j.run (xs.flatMap f) = xs.foldl (fun j x => j.run (f x)) j := by
  induction xs generalizing j with
  | nil => rfl
  | cons x rest ih => rw [List.flatMap_cons, run_append, ih, List.foldl_cons]

end Job

namespace Piece

def runOperations (s : Span) : List Operation :=
  [.apply s.format, .text s.text]

/-- A run of a composed line, which leaves alignment and size alone. -/
def segmentOperations (s : Segment) : List Operation :=
  [.bold s.bold, .text s.text]

def lineOperations (l : Line) : List Operation :=
  l.flatMap segmentOperations ++ [.newline]

/-- What a piece asks of a job. -/
def operations : Piece → List Operation
  | .feed lines => [.feed lines]
  | .border f s => runOperations ⟨f, s⟩ ++ [.newline]
  | .line runs => runs.flatMap runOperations ++ [.newline]
  | .row size ls => [.align .left, .size size] ++ ls.flatMap lineOperations
  | .picture f r => [.apply f, .raster r]

/-- Why a piece cannot be printed: a picture whose data does not agree with its
dimensions is refused. -/
def refusal? : Piece → Option Error
  | .picture _ r =>
    if r.Consistent then none
    else some (.command (.inconsistentRaster r.data.length r.width r.height))
  | _ => none

/-- The pieces that printing gets to, up to the first that is refused. -/
def reached : List Piece → List Piece
  | [] => []
  | p :: rest => if p.refusal?.isSome then [p] else p :: reached rest

theorem reached_eq_self {ps : List Piece} (h : ∀ p ∈ ps, p.refusal? = none) :
    reached ps = ps := by
  induction ps with
  | nil => rfl
  | cons p rest ih =>
      have hp := h p (by simp)
      unfold reached
      rw [hp, ih fun q hq => h q (by simp [hq])]
      rfl

theorem mem_of_mem_reached {p : Piece} {ps : List Piece} (h : p ∈ reached ps) : p ∈ ps := by
  induction ps with
  | nil => exact h
  | cons q rest ih =>
      unfold reached at h
      split at h
      · exact List.mem_cons.mpr (Or.inl (List.mem_singleton.mp h))
      · rcases List.mem_cons.mp h with rfl | h
        · simp
        · exact List.mem_cons_of_mem q (ih h)

end Piece

namespace Job

theorem piece_run (j : Job) (p : Piece) : (j.piece p).1 = j.run p.operations := by
  cases p with
  | feed lines => rfl
  | border f s => rfl
  | line runs =>
      show (runs.foldl span j).newline = _
      rw [Piece.operations, run_append, run_flatMap]
      rfl
  | row size ls =>
      show ls.foldl line ((j.setAlign .left).setSize size) = _
      rw [Piece.operations, run_append, run_flatMap]
      have hline : (fun j l => Job.run j (Piece.lineOperations l)) = line := by
        funext j l
        rw [Piece.lineOperations, run_append, run_flatMap]
        rfl
      rw [hline]
      rfl
  | picture f r =>
      show (j.piece (.picture f r)).1 = (j.apply f).perform (.raster r)
      cases hr : (j.apply f).raster r with
      | ok j' => rw [piece_picture hr]; simp only [perform, hr]
      | error e => rw [piece_picture_refused hr]; simp only [perform, hr]

theorem piece_refusal (j : Job) (p : Piece) : (j.piece p).2 = p.refusal? := by
  cases p with
  | picture f r =>
      by_cases hr : r.Consistent
      · have hok : ∃ j', (j.apply f).raster r = .ok j' := by
          unfold raster
          rw [if_neg (not_not_intro hr)]
          split <;> exact ⟨_, rfl⟩
        obtain ⟨j', hj'⟩ := hok
        rw [piece_picture hj', Piece.refusal?, if_pos hr]
      · have herror : (j.apply f).raster r
            = .error (.command (.inconsistentRaster r.data.length r.width r.height)) :=
          if_pos hr
        rw [piece_picture_refused herror, Piece.refusal?, if_neg hr]
  | _ => rfl

/-- **Printing pieces is a run of operations**: those of the pieces up to the first that
is refused, which is also the reason to stop. -/
theorem pieces_run (j : Job) (ps : List Piece) :
    j.pieces ps = (j.run ((Piece.reached ps).flatMap Piece.operations),
      ps.findSome? Piece.refusal?) := by
  induction ps generalizing j with
  | nil => rfl
  | cons p rest ih =>
      have hp : j.piece p = (j.run p.operations, p.refusal?) :=
        Prod.ext (piece_run j p) (piece_refusal j p)
      unfold Piece.reached
      cases hr : p.refusal? with
      | none =>
          rw [hr] at hp
          rw [pieces_cons hp, ih, List.findSome?_cons, hr]
          show _ = (j.run ((p :: Piece.reached rest).flatMap Piece.operations), _)
          rw [List.flatMap_cons, run_append]
      | some e =>
          rw [hr] at hp
          rw [pieces_cons_failed hp, List.findSome?_cons, hr]
          show _ = (j.run ([p].flatMap Piece.operations), _)
          rw [List.flatMap_singleton]

theorem run_paperWidth (ops : List Operation) (j : Job) :
    (j.run ops).paperWidth = j.paperWidth := by
  obtain ⟨cs, hs, -⟩ := run_alike ops j
  exact hs.paperWidth

end Job

/-! ### Steps of the walk -/

namespace Walk

/-- The step that prints pieces. -/
def prints (ps : List Piece) : Walk Unit := fun w =>
  match w.job.pieces ps with
  | (j, none) => .ok () { w with job := j }
  | (j, some e) => .error e { w with job := j }

theorem prints_ok {w : Walker} {ps : List Piece} {j : Job} (h : w.job.pieces ps = (j, none)) :
    prints ps w = .ok () { w with job := j } := by
  simp only [prints, h]

theorem prints_failed {w : Walker} {ps : List Piece} {j : Job} {e : Error}
    (h : w.job.pieces ps = (j, some e)) : prints ps w = .error e { w with job := j } := by
  simp only [prints, h]

/-- What is wanted makes no difference to the pieces, and is left as it is. -/
theorem prints_push (ps : List Piece) (w : Walker) (f : Format) :
    prints ps (w.push f) = match prints ps w with
      | .ok _ w => .ok () (w.push f)
      | .error e w => .error e (w.push f) := by
  unfold prints
  show (match w.job.pieces ps with
    | (j, none) => _
    | (j, some e) => _) = _
  rcases w.job.pieces ps with ⟨j, e?⟩
  cases e? <;> rfl

/-- With a formatting wanted, a step is nothing else than printing pieces. -/
def Does (paperWidth : Nat) (f : Format) (step : Walk Unit) (ps : List Piece) : Prop :=
  ∀ w : Walker, w.job.paperWidth = paperWidth → w.desired = f → step w = prints ps w

variable {paperWidth : Nat} {f : Format}

theorem does_nothing : Does paperWidth f (pure ()) [] := by
  intro w _ _
  rfl

/-- A step that prints one piece, which cannot fail. -/
theorem does_piece {change : Walker → Walker} {p : Piece}
    (h : ∀ w : Walker, w.job.paperWidth = paperWidth → w.desired = f →
      w.job.piece p = ((change w).job, none) ∧ (change w).wanted = w.wanted) :
    Does paperWidth f (modify change) [p] := by
  intro w hpaper hdesired
  obtain ⟨hp, hwanted⟩ := h w hpaper hdesired
  rw [prints_ok ((Job.pieces_singleton w.job p).trans hp), ← hwanted]
  rfl

theorem does_unchanged {change : Walker → Walker}
    (h : ∀ w : Walker, w.job.paperWidth = paperWidth → w.desired = f → change w = w) :
    Does paperWidth f (modify change) [] := by
  intro w hpaper hdesired
  show EStateM.Result.ok () (change w) = EStateM.Result.ok () w
  rw [h w hpaper hdesired]

/-- Steps one after the other print their pieces one after the other. -/
theorem Does.seq {s t : Walk Unit} {ps qs : List Piece} (hs : Does paperWidth f s ps)
    (ht : Does paperWidth f t qs) : Does paperWidth f (s >>= fun _ => t) (ps ++ qs) := by
  intro w hpaper hdesired
  show EStateM.bind s (fun _ => t) w = prints (ps ++ qs) w
  unfold EStateM.bind
  rw [hs w hpaper hdesired]
  have hpieces := Job.pieces_run w.job ps
  rcases hps : w.job.pieces ps with ⟨j, e?⟩
  cases e? with
  | none =>
      have hj : j.paperWidth = w.job.paperWidth := by
        rw [(Prod.mk.inj (hps.symm.trans hpieces)).1]
        exact Job.run_paperWidth _ w.job
      have hnext := ht { w with job := j } (hj.trans hpaper) hdesired
      rw [prints_ok hps]
      refine hnext.trans ?_
      unfold prints
      rw [Job.pieces_append hps]
  | some e =>
      rw [prints_failed hps, prints_failed (Job.pieces_append_failed hps qs)]

/-- One level down, with the style of the node over what is wanted. -/
theorem Does.within {step : Walk Unit} {ps : List Piece} {style : Style}
    (h : Does paperWidth (f.withStyle style) step ps) :
    Does paperWidth f (within style step) ps := by
  intro w hpaper hdesired
  have hstep := h (w.push (w.desired.withStyle style)) hpaper (by rw [hdesired]; rfl)
  unfold Walk.within
  rw [hstep, prints_push]
  cases prints ps w <;> rfl

/-! ### What each step prints -/

theorem space_does (lines : Nat) :
    Does paperWidth f (modify fun w => w.space lines) (Piece.feeds lines) := by
  unfold Piece.feeds
  by_cases h : lines = 0
  · rw [if_pos h]
    exact does_unchanged fun w _ _ => if_pos h
  · rw [if_neg h]
    refine does_piece fun w _ _ => ?_
    rw [Walker.space, if_neg h]
    exact ⟨rfl, rfl⟩

theorem border_does (style : Style) (key : String) :
    Does paperWidth f (modify fun w => w.border style key)
      (Piece.borders paperWidth f style key) := by
  unfold Piece.borders
  cases hrule : style.border? key with
  | none =>
      refine does_unchanged fun w _ _ => ?_
      simp only [Walker.border, hrule]
  | some rule =>
      refine does_piece fun w hpaper hdesired => ?_
      simp only [Walker.border, hrule]
      refine ⟨?_, trivial⟩
      subst hpaper hdesired
      rfl

theorem text_does (n : Node) (base : Format) (path : List Style)
    (hf : f = base.along (path ++ [n.style])) :
    Does paperWidth f (text n) (Piece.texts (n.runs base f.align path)) := by
  have hspans : n.spans f = n.runs base f.align path := by
    rw [← Node.spans_eq_runs, ← hf]
  rw [← hspans]
  unfold Piece.texts
  dsimp only
  by_cases h : ((n.spans f).filter fun s => !s.text.isEmpty).isEmpty = true
  · rw [if_pos h]
    refine does_unchanged fun w _ hdesired => ?_
    simp only [hdesired, Job.spanLine, h, if_true]
  · rw [if_neg h]
    refine does_piece fun w _ hdesired => ?_
    simp only [hdesired, Job.spanLine, if_neg h]
    exact ⟨rfl, trivial⟩

/-- What becomes of an image, case by case. -/
theorem image_eq (images : ImageCache) (n : Node) (w : Walker) :
    image images n w = match (n.imageKey? w.job.paperWidth).bind images.find? with
      | none => EStateM.Result.ok () w
      | some r =>
        match w.sync.job.raster r with
        | .ok j => EStateM.Result.ok () { w with job := j }
        | .error e => EStateM.Result.error e w.sync := by
  show (match (n.imageKey? w.job.paperWidth).bind images.find? with
    | none => (pure () : Walk Unit)
    | some r => do
      set w.sync
      match w.sync.job.raster r with
      | .ok j => set { w.sync with job := j }
      | .error e => throw e) w = _
  cases (n.imageKey? w.job.paperWidth).bind images.find? with
  | none => rfl
  | some r =>
      show (match w.sync.job.raster r with
        | .ok j => (set { w.sync with job := j } : Walk Unit)
        | .error e => throw e) w.sync = _
      dsimp only
      cases w.sync.job.raster r <;> rfl

theorem image_does (images : ImageCache) (n : Node) :
    Does paperWidth f (image images n) (Piece.pictures images paperWidth f n) := by
  intro w hpaper hdesired
  subst hpaper hdesired
  rw [image_eq]
  unfold Piece.pictures
  cases (n.imageKey? w.job.paperWidth).bind images.find? with
  | none => rfl
  | some r =>
      have hp := Job.pieces_singleton w.job (.picture w.desired r)
      dsimp only
      cases hr : w.sync.job.raster r with
      | ok j => rw [prints_ok (hp.trans (Job.piece_picture hr))]
      | error e =>
          rw [prints_failed (hp.trans (Job.piece_picture_refused hr))]
          rfl

theorem row_does (n : Node) :
    Does paperWidth f (row n) (Piece.rows paperWidth f n) := by
  refine does_piece fun w hpaper hdesired => ?_
  subst hpaper hdesired
  exact ⟨rfl, rfl⟩

theorem framed_does {content : Walk Unit} {ps : List Piece} (style : Style)
    (h : Does paperWidth f content ps) :
    Does paperWidth f (framed style content) (Piece.framed paperWidth f style ps) :=
  (space_does _).seq ((border_does style _).seq (h.seq ((border_does style _).seq
    (space_does _))))

end Walk

section

variable (images : ImageCache) (paperWidth : Nat) (base : Format)

mutual

/-- **Printing a node is printing its pieces.** -/
theorem Node.print_does (path : List Style) : ∀ n : Node,
    Walk.Does paperWidth (base.along path) (n.print images)
      (n.pieces images paperWidth base path)
  | ⟨kind, props, style, children⟩ => by
      have hf := Format.along_concat base path style
      unfold Node.print Node.pieces
      cases hrole : Node.roleOf kind style with
      | skip => exact Walk.does_nothing
      | text =>
          rw [hf]
          exact (Walk.framed_does style
            (Walk.text_does ⟨kind, props, style, children⟩ base path hf.symm)).within
      | image =>
          rw [hf]
          exact (Walk.framed_does style (Walk.image_does images _)).within
      | row =>
          rw [hf]
          exact (Walk.framed_does style (Walk.row_does _)).within
      | block =>
          have hchildren := printAll_does (path ++ [style]) children
          rw [hf] at hchildren ⊢
          exact (Walk.framed_does style hchildren).within

theorem printAll_does (path : List Style) : ∀ ns : List Node,
    Walk.Does paperWidth (base.along path) (printAll images ns)
      (piecesOf images paperWidth base path ns)
  | [] => by
      unfold printAll piecesOf
      exact Walk.does_nothing
  | n :: rest => by
      unfold printAll piecesOf
      exact (Node.print_does path n).seq (printAll_does path rest)

end

end

/-- **Printing a document is printing its pieces, each in the formatting of its path.** -/
theorem Job.printNode_eq_pieces (j : Job) (images : ImageCache) (root : Node) :
    j.printNode images root = j.pieces (root.pieces images j.paperWidth j.format []) := by
  have h := Node.print_does images j.paperWidth j.format [] root (Walker.start j) rfl rfl
  unfold Job.printNode
  rw [h]
  rcases hps : j.pieces (root.pieces images j.paperWidth j.format []) with ⟨j', e?⟩
  have hstart : (Walker.start j).job.pieces (root.pieces images j.paperWidth j.format [])
      = (j', e?) := hps
  cases e? with
  | none => rw [Walk.prints_ok hstart]
  | some e => rw [Walk.prints_failed hstart]

/-- So a document is no more to a job than operations in a row. -/
theorem Job.printNode_eq_run (j : Job) (images : ImageCache) (root : Node) :
    j.printNode images root =
      (j.run ((Piece.reached (root.pieces images j.paperWidth j.format [])).flatMap
        Piece.operations),
      (root.pieces images j.paperWidth j.format []).findSome? Piece.refusal?) := by
  rw [printNode_eq_pieces, pieces_run]

end Receipt
