/-
What the walk asks the images for.

Rasters are made before the walk starts, from a list that a recursion of its own draws
up.  Should the two ever disagree about a node, a picture would be missing on paper, or
one that nobody prints would stop the conversion.

To see what the walk looks up, it is watched.  `Node.printAsking` walks as `Node.print`
does, but it holds no images.  Where it gets to one it has to ask, and the step that
prints the picture is given a cache with nothing in it but the answer.  With its
questions noted and answered from a cache it is the walk itself, and what it has noted
is what the other recursion lists: all of it, or the front of it if a raster was
refused.
-/
import Receipt.Proofs.Firsts
import Receipt.Proofs.Walk.Printed

namespace Receipt

/-! ### Watching the walk -/

/-- A walk in progress, and what it has asked for so far. -/
structure Watcher where
  walker : Walker
  asked : List ImageKey

/-- A step of the walk under watch, which may fail. -/
abbrev Watched := EStateM Error Watcher

namespace Watched

/-- A step of the walk that asks for nothing. -/
def quietly (step : Walk Unit) : Watched Unit := fun s =>
  match step s.walker with
  | .ok _ w => .ok () { s with walker := w }
  | .error e w => .error e { s with walker := w }

def within (style : Style) (step : Watched Unit) : Watched Unit := fun s =>
  match step { s with walker := s.walker.push (s.walker.desired.withStyle style) } with
  | .ok _ s => .ok () { s with walker := s.walker.pop }
  | .error e s => .error e { s with walker := s.walker.pop }

def framed (style : Style) (content : Watched Unit) : Watched Unit := do
  quietly (modify fun w => w.space style.spacing.top)
  quietly (modify fun w => w.border style "borderTop")
  content
  quietly (modify fun w => w.border style "borderBottom")
  quietly (modify fun w => w.space style.spacing.bottom)

/-- Answer from a cache, and note the question. -/
def consult (images : ImageCache) (key : ImageKey) : Watched (Option Raster) := fun s =>
  .ok (images.find? key) { s with asked := s.asked ++ [key] }

/-- A cache with nothing in it but the answer to a question. -/
def answer (key : ImageKey) (r? : Option Raster) : ImageCache :=
  r?.toList.map fun r => (key, r)

/-- Print the raster of an image that has a source, if the answer is one. -/
def image (ask : ImageKey → Watched (Option Raster)) (n : Node) : Watched Unit := do
  let s ← get
  match n.imageKey? s.walker.job.paperWidth with
  | none => quietly (Walk.image [] n)
  | some key =>
    let r? ← ask key
    quietly (Walk.image (answer key r?) n)

/-- What the walk comes to, and beside it what was asked for. -/
def beside (asked : List ImageKey) :
    EStateM.Result Error Walker Unit → EStateM.Result Error Watcher Unit
  | .ok _ w => .ok () ⟨w, asked⟩
  | .error e w => .error e ⟨w, asked⟩

end Watched

mutual

/-- Print a node with all that it holds, asking for every image. -/
def Node.printAsking (ask : ImageKey → Watched (Option Raster)) : Node → Watched Unit
  | ⟨kind, props, style, children⟩ =>
    match Node.roleOf kind style with
    | .skip => pure ()
    | .text =>
      Watched.within style (Watched.framed style
        (Watched.quietly (Walk.text ⟨kind, props, style, children⟩)))
    | .image =>
      Watched.within style (Watched.framed style
        (Watched.image ask ⟨kind, props, style, children⟩))
    | .row =>
      Watched.within style (Watched.framed style
        (Watched.quietly (Walk.row ⟨kind, props, style, children⟩)))
    | .block => Watched.within style (Watched.framed style (printAllAsking ask children))

def printAllAsking (ask : ImageKey → Watched (Option Raster)) : List Node → Watched Unit
  | [] => pure ()
  | n :: rest => do
    n.printAsking ask
    printAllAsking ask rest

end

/-! ### Steps -/

namespace Watched

/-- With a formatting wanted, a step prints the pieces and asks for the keys.  If a piece
is refused it stops there, and has asked for some of the keys, from the first one on. -/
def Asks (paperWidth : Nat) (f : Format) (step : Watched Unit) (ps : List Piece)
    (keys : List ImageKey) : Prop :=
  ∀ s : Watcher, s.walker.job.paperWidth = paperWidth → s.walker.desired = f →
    ∃ asked, asked <+: keys ∧ ((s.walker.job.pieces ps).2 = none → asked = keys) ∧
      step s = beside (s.asked ++ asked) (Walk.prints ps s.walker)

variable {paperWidth : Nat} {f : Format}

theorem asks_nothing : Asks paperWidth f (pure ()) [] [] := by
  intro s _ _
  refine ⟨[], List.prefix_rfl, fun _ => rfl, ?_⟩
  rw [List.append_nil]
  rfl

/-- A step that prints pieces asks for nothing. -/
theorem quietly_asks {step : Walk Unit} {ps : List Piece}
    (h : Walk.Does paperWidth f step ps) : Asks paperWidth f (quietly step) ps [] := by
  intro s hpaper hdesired
  refine ⟨[], List.prefix_rfl, fun _ => rfl, ?_⟩
  rw [List.append_nil, ← h s.walker hpaper hdesired]
  unfold quietly beside
  cases step s.walker <;> rfl

/-- Steps one after the other ask for their keys one after the other. -/
theorem Asks.seq {s t : Watched Unit} {ps qs : List Piece} {ks ls : List ImageKey}
    (hs : Asks paperWidth f s ps ks) (ht : Asks paperWidth f t qs ls) :
    Asks paperWidth f (s >>= fun _ => t) (ps ++ qs) (ks ++ ls) := by
  intro w hpaper hdesired
  obtain ⟨asked, hfront, hall, hstep⟩ := hs w hpaper hdesired
  have hbind : (s >>= fun _ => t) w = EStateM.bind s (fun _ => t) w := rfl
  unfold EStateM.bind at hbind
  rw [hstep] at hbind
  have hpieces := Job.pieces_run w.walker.job ps
  rcases hps : w.walker.job.pieces ps with ⟨j, e?⟩
  rw [hps] at hall
  cases e? with
  | none =>
      have hj : j.paperWidth = w.walker.job.paperWidth := by
        rw [(Prod.mk.inj (hps.symm.trans hpieces)).1]
        exact Job.run_paperWidth _ w.walker.job
      obtain ⟨more, hmore, hrest, hnext⟩ :=
        ht ⟨{ w.walker with job := j }, w.asked ++ asked⟩ (hj.trans hpaper) hdesired
      rw [Walk.prints_ok hps] at hbind
      obtain rfl := hall rfl
      rw [Job.pieces_append hps]
      refine ⟨asked ++ more, (List.prefix_append_right_inj asked).mpr hmore,
        fun h => by rw [hrest h], ?_⟩
      rw [hbind]
      refine hnext.trans ?_
      rw [List.append_assoc]
      unfold Walk.prints
      rw [Job.pieces_append hps]
  | some e =>
      rw [Walk.prints_failed hps] at hbind
      rw [Job.pieces_append_failed hps qs, Walk.prints_failed (Job.pieces_append_failed hps qs)]
      exact ⟨asked, hfront.trans (List.prefix_append ks ls), by simp, hbind⟩

/-- One level down, a step asks for the same. -/
theorem Asks.within {step : Watched Unit} {ps : List Piece} {keys : List ImageKey}
    {style : Style} (h : Asks paperWidth (f.withStyle style) step ps keys) :
    Asks paperWidth f (within style step) ps keys := by
  intro s hpaper hdesired
  obtain ⟨asked, hfront, hall, hstep⟩ :=
    h ⟨s.walker.push (s.walker.desired.withStyle style), s.asked⟩ hpaper (by rw [hdesired]; rfl)
  refine ⟨asked, hfront, hall, ?_⟩
  unfold Watched.within
  rw [hstep, Walk.prints_push]
  cases Walk.prints ps s.walker <;> rfl

theorem framed_asks {content : Watched Unit} {ps : List Piece} {keys : List ImageKey}
    (style : Style) (h : Asks paperWidth f content ps keys) :
    Asks paperWidth f (framed style content) (Piece.framed paperWidth f style ps) keys := by
  have hspace : ∀ lines, Asks paperWidth f (quietly (modify fun w => w.space lines))
      (Piece.feeds lines) [] := fun lines => quietly_asks (Walk.space_does lines)
  have hborder : ∀ key, Asks paperWidth f (quietly (modify fun w => w.border style key))
      (Piece.borders paperWidth f style key) [] := fun key =>
    quietly_asks (Walk.border_does style key)
  have hall := (hspace style.spacing.top).seq ((hborder "borderTop").seq
    (h.seq ((hborder "borderBottom").seq (hspace style.spacing.bottom))))
  rw [List.append_nil, List.nil_append, List.nil_append, List.append_nil] at hall
  exact hall

theorem find?_answer (key : ImageKey) (r? : Option Raster) :
    (answer key r?).find? key = r? := by
  cases r? with
  | none => rfl
  | some r => exact List.lookup_cons_self

/-- An image with a source is asked for, and the answer is all that its picture takes. -/
theorem image_asks (images : ImageCache) (n : Node) :
    Asks paperWidth f (image (consult images) n) (Piece.pictures images paperWidth f n)
      (n.imageKey? paperWidth).toList := by
  intro s hpaper hdesired
  have himage : image (consult images) n s
      = match n.imageKey? s.walker.job.paperWidth with
        | none => quietly (Walk.image [] n) s
        | some key => quietly (Walk.image (answer key (images.find? key)) n)
            { s with asked := s.asked ++ [key] } := by
    show (match n.imageKey? s.walker.job.paperWidth with
      | none => quietly (Walk.image [] n)
      | some key => consult images key >>= fun r? =>
        quietly (Walk.image (answer key r?) n)) s = _
    cases n.imageKey? s.walker.job.paperWidth <;> rfl
  refine ⟨_, List.prefix_rfl, fun _ => rfl, ?_⟩
  rw [himage, hpaper]
  cases hkey : n.imageKey? paperWidth with
  | none =>
      obtain ⟨asked, hfront, -, hstep⟩ := quietly_asks (Walk.image_does [] n) s hpaper hdesired
      obtain rfl := List.prefix_nil.mp hfront
      have hpictures : Piece.pictures [] paperWidth f n
          = Piece.pictures images paperWidth f n := by
        simp only [Piece.pictures, hkey, Option.bind_none]
      rw [hpictures] at hstep
      exact hstep
  | some key =>
      obtain ⟨asked, hfront, -, hstep⟩ :=
        quietly_asks (Walk.image_does (answer key (images.find? key)) n)
          { s with asked := s.asked ++ [key] } hpaper hdesired
      obtain rfl := List.prefix_nil.mp hfront
      have hpictures : Piece.pictures (answer key (images.find? key)) paperWidth f n
          = Piece.pictures images paperWidth f n := by
        simp only [Piece.pictures, hkey, Option.bind_some, find?_answer]
      rw [hpictures, List.append_nil] at hstep
      exact hstep

end Watched

/-! ### Documents -/

section

variable (images : ImageCache) (paperWidth : Nat) (base : Format)

mutual

/-- **Printing a node asks for the images that it reaches.** -/
theorem Node.print_asks (path : List Style) : ∀ n : Node,
    Watched.Asks paperWidth (base.along path) (n.printAsking (Watched.consult images))
      (n.pieces images paperWidth base path) (n.reachedImages paperWidth)
  | ⟨kind, props, style, children⟩ => by
      have hf := Format.along_concat base path style
      unfold Node.printAsking Node.pieces Node.reachedImages
      cases hrole : Node.roleOf kind style with
      | skip => exact Watched.asks_nothing
      | text =>
          rw [hf]
          exact (Watched.framed_asks style (Watched.quietly_asks
            (Walk.text_does ⟨kind, props, style, children⟩ base path hf.symm))).within
      | image =>
          rw [hf]
          exact (Watched.framed_asks style (Watched.image_asks images _)).within
      | row =>
          rw [hf]
          exact (Watched.framed_asks style (Watched.quietly_asks (Walk.row_does _))).within
      | block =>
          have hchildren := printAll_asks (path ++ [style]) children
          rw [hf] at hchildren ⊢
          exact (Watched.framed_asks style hchildren).within

theorem printAll_asks (path : List Style) : ∀ ns : List Node,
    Watched.Asks paperWidth (base.along path) (printAllAsking (Watched.consult images) ns)
      (piecesOf images paperWidth base path ns) (reachedImagesOf paperWidth ns)
  | [] => by
      unfold printAllAsking piecesOf reachedImagesOf
      exact Watched.asks_nothing
  | n :: rest => by
      unfold printAllAsking piecesOf reachedImagesOf
      exact (Node.print_asks path n).seq (printAll_asks path rest)

end

end

/-! ### Caches that answer alike -/

section

variable {images images' : ImageCache} {paperWidth : Nat} {base : Format}

mutual

/-- A node prints the same with any cache that answers the same to what it asks for. -/
theorem Node.pieces_congr (path : List Style) : ∀ n : Node,
    (∀ key ∈ n.reachedImages paperWidth, images.find? key = images'.find? key) →
    n.pieces images paperWidth base path = n.pieces images' paperWidth base path
  | ⟨kind, props, style, children⟩, h => by
      unfold Node.reachedImages at h
      unfold Node.pieces
      cases hrole : Node.roleOf kind style with
      | image =>
          have hpictures : ∀ f : Format,
              Piece.pictures images paperWidth f ⟨kind, props, style, children⟩
                = Piece.pictures images' paperWidth f ⟨kind, props, style, children⟩ := by
            intro f
            unfold Piece.pictures
            cases hkey : (Node.mk kind props style children).imageKey? paperWidth with
            | none => rfl
            | some key =>
                have hfind := h key (by simp [hrole, hkey])
                simp only [Option.bind_some, hfind]
          simp only [hpictures]
      | block =>
          have hchildren := piecesOf_congr (path ++ [style]) children
            (by simpa only [hrole] using h)
          simp only [hchildren]
      | _ => rfl

theorem piecesOf_congr (path : List Style) : ∀ ns : List Node,
    (∀ key ∈ reachedImagesOf paperWidth ns, images.find? key = images'.find? key) →
    piecesOf images paperWidth base path ns = piecesOf images' paperWidth base path ns
  | [], _ => by unfold piecesOf; rfl
  | n :: rest, h => by
      unfold reachedImagesOf at h
      unfold piecesOf
      rw [Node.pieces_congr path n fun key hkey => h key (List.mem_append_left _ hkey),
        piecesOf_congr path rest fun key hkey => h key (List.mem_append_right _ hkey)]

end

end

namespace ImageCache

theorem find?_isSome_iff {images : ImageCache} {key : ImageKey} :
    (∃ r, images.find? key = some r) ↔ ∃ r, (key, r) ∈ images := by
  rw [← Option.isSome_iff_exists, find?, List.lookup_isSome_iff]
  constructor
  · rintro ⟨⟨k, r⟩, hmem, hk⟩
    obtain rfl := eq_of_beq hk
    exact ⟨r, hmem⟩
  · rintro ⟨r, hmem⟩
    exact ⟨(key, r), hmem, beq_self_eq_true key⟩

/-- The entries of a cache whose keys are on a list. -/
def restrict (images : ImageCache) (keys : List ImageKey) : ImageCache :=
  images.filter fun e => e.1 ∈ keys

theorem find?_restrict {keys : List ImageKey} {key : ImageKey} (h : key ∈ keys)
    (images : ImageCache) : (images.restrict keys).find? key = images.find? key := by
  induction images with
  | nil => rfl
  | cons e rest ih =>
      obtain ⟨k, r⟩ := e
      have hrest : List.lookup key (rest.filter fun e => e.1 ∈ keys) = List.lookup key rest := ih
      unfold restrict find?
      by_cases hk : k ∈ keys
      · rw [List.filter_cons_of_pos (by simpa using hk), List.lookup_cons, List.lookup_cons, hrest]
      · have hne : (key == k) = false := by
          rw [beq_eq_false_iff_ne]
          rintro rfl
          exact hk h
        rw [List.filter_cons_of_neg (by simpa using hk), hrest, List.lookup_cons, hne]

end ImageCache

namespace Job

/-- **A document is printed from the entries it asks for, whatever else is cached.** -/
theorem printNode_restrict (j : Job) (images : ImageCache) (root : Node) :
    j.printNode (images.restrict (root.imageRequests j.paperWidth)) root
      = j.printNode images root := by
  have hpieces : root.pieces (images.restrict (root.imageRequests j.paperWidth)) j.paperWidth
      j.format [] = root.pieces images j.paperWidth j.format [] :=
    Node.pieces_congr [] root fun key hkey =>
      ImageCache.find?_restrict (List.mem_eraseDups.mpr hkey) images
  rw [printNode_eq_pieces, printNode_eq_pieces, hpieces]

/-- The walk under watch is the walk, and notes what the tree reaches. -/
theorem printAsking_start (j : Job) (images : ImageCache) (root : Node) :
    ∃ asked, asked <+: root.reachedImages j.paperWidth ∧
      ((j.printNode images root).2 = none → asked = root.reachedImages j.paperWidth) ∧
      root.printAsking (Watched.consult images) ⟨Walker.start j, []⟩
        = Watched.beside asked (root.print images (Walker.start j)) := by
  obtain ⟨asked, hfront, hall, hwatched⟩ :=
    Node.print_asks images j.paperWidth j.format [] root ⟨Walker.start j, []⟩ rfl rfl
  have hwalk := Node.print_does images j.paperWidth j.format [] root (Walker.start j) rfl rfl
  refine ⟨asked, hfront, ?_, ?_⟩
  · intro hnone
    rw [printNode_eq_pieces] at hnone
    exact hall hnone
  · rw [hwalk]
    exact hwatched

/-- **What is drawn up beforehand is what the walk asks for.**  The walk under watch is the
walk, and what it has asked for in the end are images from the list, which has none twice.
If no raster is inconsistent these are all of them, and the list has them in the order in
which they were first asked for.  So with a cache for just that list no image goes
missing, and what else is in a cache makes no difference. -/
theorem printNode_asks_for_requests (j : Job) (images : ImageCache) (root : Node) :
    let requests := root.imageRequests j.paperWidth
    ∃ asked,
      root.printAsking (Watched.consult images) ⟨Walker.start j, []⟩
        = Watched.beside asked (root.print images (Walker.start j)) ∧
      requests.Nodup ∧
      (∀ key ∈ asked, key ∈ requests) ∧
      ((∀ e ∈ images, e.2.Consistent) → FirstsOf requests asked) ∧
      ((∀ key, (∃ r, (key, r) ∈ images) ↔ key ∈ requests) →
        ∀ key ∈ asked, ∃ r, images.find? key = some r) ∧
      j.printNode (images.restrict requests) root = j.printNode images root := by
  intro requests
  obtain ⟨asked, hfront, hall, hwatched⟩ := printAsking_start j images root
  have hfirsts : FirstsOf requests (root.reachedImages j.paperWidth) := FirstsOf.eraseDups _
  have hrequested : ∀ key ∈ asked, key ∈ requests := fun key hkey =>
    (hfirsts.mem_iff key).mpr (hfront.subset hkey)
  refine ⟨asked, hwatched, hfirsts.nodup, hrequested, ?_, ?_, printNode_restrict j images root⟩
  · intro himages
    have hnone : (j.printNode images root).2 = none := by
      rw [printNode_eq_run]
      exact List.findSome?_eq_none_iff.mpr fun p hp => Node.refusal?_of_mem_pieces himages hp
    rw [hall hnone]
    exact hfirsts
  · intro hkeys key hkey
    exact ImageCache.find?_isSome_iff.mpr ((hkeys key).mpr (hrequested key hkey))

end Job

end Receipt
