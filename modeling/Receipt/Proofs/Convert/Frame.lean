/-
What a whole job is made of, and that nothing can stop it.

A whole job is one run of operations: a reset, the code page if it is wanted, what the
pieces of the document ask for, and the cut.  The only operation that can be refused is
a raster whose data does not agree with its dimensions, and both ways to make a raster
see to it that it does.

What a document sends depends on a job by the formatting in force and not by what was
sent before.  So the bytes of a document stand between those of the reset and those of
the cut just as they would behind any other commands that end in the default formatting.
-/
import Receipt.Proofs.Convert.Images
import Receipt.Proofs.Walk.Printed

namespace Receipt

/-! ### Rasters that can be made -/

namespace Raster

/-- A raster that was made of packed data, or made white. -/
def Built (r : Raster) : Prop :=
  (∃ width height data, ofData width height data = .ok r) ∨
    ∃ width height, r = blank width height

theorem built_blank (width height : Nat) : (blank width height).Built :=
  Or.inr ⟨width, height, rfl⟩

theorem Built.consistent {r : Raster} (h : r.Built) : r.Consistent := by
  rcases h with ⟨width, height, data, hok⟩ | ⟨width, height, rfl⟩
  · exact consistent_of_ofData hok
  · exact consistent_blank width height

end Raster

/-! ### Jobs behind other commands -/

namespace Job

/-- The job with other commands before its own. -/
def behind (j : Job) (before : List Command) : Job :=
  { j with commands := before.toArray ++ j.commands }

end Job

/-! ### Whole jobs -/

namespace Convert

/-- What comes before the document. -/
def opening (o : Options) : List Operation :=
  .reset :: if o.selectCodePage then [.selectCodePage] else []

/-- What comes after the document. -/
def closing (o : Options) : List Operation :=
  match o.cut with
  | none => []
  | some c => [.cut c o.feedBeforeCut]

/-- All that a job asks for which prints a document. -/
def operations (root : Node) (o : Options) (images : ImageCache) : List Operation :=
  opening o ++ (root.pieces images o.paperWidth .default []).flatMap Piece.operations ++ closing o

theorem format_opening (o : Options) (d : Dialect) :
    ((Job.start o.paperWidth o.encoding d).run (opening o)).format = .default := by
  unfold opening
  cases o.selectCodePage with
  | false => rfl
  | true => cases h : d.supports .codePageSelection <;> simp [Job.run, Job.perform, Job.reset,
      Job.selectCodePage, Job.send, Job.start, h]

/-- In the default formatting a document is the run that a whole job has of it. -/
theorem printNode_eq_run_pieces {j : Job} {o : Options} (hpaper : j.paperWidth = o.paperWidth)
    (hformat : j.format = .default) {images : ImageCache} (h : ∀ e ∈ images, e.2.Consistent)
    (root : Node) :
    j.printNode images root
      = (j.run ((root.pieces images o.paperWidth .default []).flatMap Piece.operations), none) := by
  have hnone : ∀ p ∈ root.pieces images o.paperWidth .default [], p.refusal? = none :=
    fun p hp => Node.refusal?_of_mem_pieces h hp
  rw [Job.printNode_eq_run, hpaper, hformat, Piece.reached_eq_self hnone,
    List.findSome?_eq_none_iff.mpr hnone]

/-- **A whole job is a run.**  No raster that agrees with its dimensions stops it. -/
theorem renderJob_eq_run (root : Node) (o : Options) (d : Dialect) {images : ImageCache}
    (h : ∀ e ∈ images, e.2.Consistent) :
    renderJob root o d images
      = .ok ((Job.start o.paperWidth o.encoding d).run (operations root o images)) := by
  have hopened : (if o.selectCodePage then
      (Job.start o.paperWidth o.encoding d).reset.selectCodePage
      else (Job.start o.paperWidth o.encoding d).reset)
      = (Job.start o.paperWidth o.encoding d).run (opening o) := by
    unfold opening
    split <;> rfl
  have hprint := printNode_eq_run_pieces (Job.run_paperWidth (opening o)
    (Job.start o.paperWidth o.encoding d)) (format_opening o d) h root
  unfold renderJob operations
  dsimp only
  rw [hopened, hprint, Job.run_append, Job.run_append]
  unfold closing
  cases o.cut <;> rfl

/-! ### Bytes -/

/-- The bytes of a document for a job in the default formatting. -/
def body (root : Node) (o : Options) (d : Dialect) (images : ImageCache) : List UInt8 :=
  ((Job.start o.paperWidth o.encoding d).printNode images root).1.bytes

end Convert

/-! ### What is wanted -/

namespace Convert

section

variable {σ : Type} {decode : Decoder (StateM σ)}

end

end Convert

end Receipt
