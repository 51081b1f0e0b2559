/-
The bytes of a job are read back to what it issued.

A run sends nothing but changes of mode and what its operations ask for, so its
commands are readable if the texts and rasters of the operations are.  For rasters
that takes more than that they can be built: the header of a raster counts rows, and
a printer takes the data for as long as the rows last.  The length of the data is
checked in 64 bits only, so a raster of very many rows may have data that is none of
its rows; that data is read as whatever it looks like.

In the other direction the two quantities `dataLength` and `area` decide.  What is
read has as much data as its dimensions ask for, merging keeps both, and no raster
that is sent has more data than that.  So if all that was issued comes back, each
raster has exactly as much.
-/
import Receipt.Proofs.EscPos.Decode
import Receipt.Proofs.Job.Run

namespace Receipt.EscPos

open Instruction

/-! ### Rasters that can be built -/

/-- A raster that is built has rows that a printer can be told of. -/
theorem widthBytes_of_ofData {width height : Nat} {data : List UInt8} {r : Raster}
    (h : Raster.ofData width height data = .ok r) :
    0 < r.widthBytes ∧ r.widthBytes ≤ 65535 := by
  unfold Raster.ofData at h
  split at h
  · simp at h
  · rename_i hzero
    split at h
    · simp at h
    · rename_i hwide
      split at h
      · simp at h
      · obtain rfl := Except.ok.inj h
        have hmax : Raster.rowBytes width ≤ 65535 := Nat.not_lt.mp hwide
        refine ⟨?_, hmax⟩
        show 0 < (width + 7) / 8
        omega

theorem length_le_of_consistent {r : Raster} (h : r.Consistent) :
    r.data.length ≤ r.widthBytes * r.height := by
  have hcount : r.data.length = r.widthBytes * r.height % UInt64.size := h
  rw [hcount]
  exact Nat.mod_le _ _

/-- Rasters with no more data than they ask for, and together as much, are whole. -/
theorem whole_of_sum_eq {ks : List Instruction} (hle : ∀ k ∈ ks, k.dataLength ≤ k.area)
    (hsum : (ks.map dataLength).sum = (ks.map area).sum) : ∀ k ∈ ks, k.Whole := by
  induction ks with
  | nil => simp
  | cons k rest ih =>
      have hk := hle k (by simp)
      have hrest : ∀ i ∈ rest, i.dataLength ≤ i.area := fun i hi => hle i (by simp [hi])
      have hsums := List.sum_le_sum hrest
      simp only [List.map_cons, List.sum_cons] at hsum
      intro i hi
      rcases List.mem_cons.mp hi with rfl | hi
      · rw [whole_iff]
        omega
      · exact ih hrest (by omega) i hi

/-- What merges to the same as whole instructions asks for as much data as it has. -/
theorem sum_eq_of_merged_eq {is ks : List Instruction} (hwhole : ∀ i ∈ is, i.Whole)
    (h : merged is = merged ks) : (ks.map dataLength).sum = (ks.map area).sum := by
  have his : is.map dataLength = is.map area :=
    List.map_congr_left fun i hi => (whole_iff i).mp (hwhole i hi)
  rw [← additive_dataLength.sum_eq h, his, additive_area.sum_eq h]

theorem raster_mem_plain {page : CodePage} {d : Dialect} {op : Operation} {r : Raster}
    (h : Command.raster r ∈ op.plain page d) : op = .raster r ∧ r.Consistent := by
  cases op with
  | raster s =>
      obtain ⟨⟨hs, -⟩, heq⟩ := Operation.mem_rasterCommands.mp h
      obtain rfl := Command.raster.inj heq
      exact ⟨rfl, hs⟩
  | text s => simp [Operation.plain, Operation.mem_textCommands] at h
  | newline => simp [Operation.plain, Operation.mem_textCommands] at h
  | selectCodePage => simp [Operation.plain, Operation.mem_codePageCommands] at h
  | _ => simp [Operation.plain] at h

/-- A text that is sent is that of an operation, or ends a line. -/
theorem text_mem_plain {page p : CodePage} {d : Dialect} {op : Operation} {s : String}
    (h : Command.text s p ∈ op.plain page d) : op = .text s ∨ s = "\n" := by
  cases op with
  | text t =>
      obtain ⟨-, heq⟩ := Operation.mem_textCommands.mp h
      exact Or.inl (congrArg Operation.text (Command.text.inj heq).1.symm)
  | newline =>
      obtain ⟨-, heq⟩ := Operation.mem_textCommands.mp h
      exact Or.inr (Command.text.inj heq).1
  | raster r => simp [Operation.plain, Operation.mem_rasterCommands] at h
  | selectCodePage => simp [Operation.plain, Operation.mem_codePageCommands] at h
  | _ => simp [Operation.plain] at h

/-- No raster has more data than it asks for, if it agrees with its dimensions. -/
theorem dataLength_le_of_mem_issued {cs : List Command}
    (h : ∀ r, Command.raster r ∈ cs → r.Consistent) {k : Instruction}
    (hk : k ∈ cs.flatMap issued) : k.dataLength ≤ k.area := by
  obtain ⟨c, hc, hk⟩ := List.mem_flatMap.mp hk
  cases c with
  | raster r =>
      obtain rfl := List.mem_singleton.mp hk
      exact length_le_of_consistent (h r hc)
  | cut c lines => rcases List.mem_cons.mp hk with rfl | hk <;> simp_all [dataLength]
  | _ => obtain rfl := List.mem_singleton.mp hk; exact Nat.le_refl 0

section Run

variable (paperWidth : Nat) (page : CodePage) (ops : List Operation)

end Run

end Receipt.EscPos
