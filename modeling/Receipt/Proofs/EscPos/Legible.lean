/-
Which commands are read back from their bytes, exactly.

A text is legible without the two control characters that start commands, and a raster
with the data its dimensions ask for, in rows of a size that two bytes can tell.  That
is enough, and what is not legible cannot come back.  For this direction there is one
quantity for each way to fail.  A reader never finds a text with bytes that start
commands, nor rows that are too wide, nor a raster without its data; merging keeps all
three quantities, so if all that was issued comes back, nothing of them was issued.
-/
import Receipt.Proofs.EscPos.Paper
import Receipt.Proofs.EscPos.Stream

namespace Receipt.EscPos

open Instruction

/-- A command that its bytes say. -/
def Legible : Command → Prop
  | .text s _ => CodePage.Plain s
  | .raster r => r.data.length = r.widthBytes * r.height ∧
      (r.widthBytes ≤ Raster.maxRowBytes ∨ r.height = 0)
  | _ => True

instance : DecidablePred Legible := fun c =>
  match c with
  | .text s _ => inferInstanceAs (Decidable (CodePage.Plain s))
  | .raster _ => inferInstanceAs (Decidable (_ ∧ _))
  | .reset | .align _ | .size _ | .bold _ | .feed _ | .cut _ _ | .codePage _ =>
    inferInstanceAs (Decidable True)

/-! ### Legible commands -/

theorem reads_legible {c : Command} (h : Legible c)
    (hpos : ∀ r, c = .raster r → 0 < r.widthBytes) :
    ∃ is, Reads (encode c) is ∧ AmountsTo is (issued c) := by
  cases c with
  | text s page => exact reads_encode (c := .text s page) h
  | raster r =>
      obtain ⟨hlen, hbytes | hrows⟩ := h
      · exact reads_encode (c := .raster r) ⟨hpos r rfl, hbytes, hlen⟩
      · -- A raster of no rows is not sent, and is absent from what was issued.
        rw [hrows, Nat.mul_zero] at hlen
        have hnone := List.eq_nil_of_length_eq_zero hlen
        have hraster : encode (.raster r) = [] := by
          show (parts (r.widthBytes * bandRows) r.data).flatMap _ = []
          rw [hnone]
          rfl
        rw [hraster]
        refine ⟨[], Reads.nil, amountsTo_absent ?_⟩
        simp [isAbsent, hrows, hnone]
  | _ => exact reads_encode trivial

/-- What is legible tells printers what it says. -/
theorem told_of_legible {c : Command} (h : Legible c) (hsize : ∀ s, c = .size s → s.Known) :
    Told c := by
  cases c with
  | text s page => exact h
  | size s => exact hsize s rfl
  | raster r =>
      obtain ⟨hlen, hbytes | hrows⟩ := h
      · exact Or.inr ⟨hbytes, hlen ▸ Nat.dvd_mul_right _ _⟩
      · rw [hrows, Nat.mul_zero] at hlen
        exact Or.inl (List.eq_nil_of_length_eq_zero hlen)
  | _ => trivial

/-! ### Quantities that a reader never finds -/

/-- The bytes of a text that start commands. -/
def Instruction.starters : Instruction → Nat
  | .text bytes => bytes.countP fun b => b == esc || b == gs
  | _ => 0

/-- The rows of a raster that are wider than printers can be told. -/
def Instruction.wideRows : Instruction → Nat
  | .raster rowBytes rows _ => if rowBytes ≤ Raster.maxRowBytes then 0 else rows
  | _ => 0

theorem additive_starters : Additive Instruction.starters where
  join h := by
    rcases join?_cases h with ⟨a, b, rfl, rfl, rfl⟩ | ⟨w, a, b, as, bs, rfl, rfl, rfl⟩ |
      ⟨as, bs, rfl, rfl, rfl⟩
    · rfl
    · rfl
    · exact List.countP_append
  absent {i} h := by
    cases i with
    | text bytes =>
        obtain rfl := List.isEmpty_iff.mp h
        rfl
    | _ => rfl

theorem additive_wideRows : Additive Instruction.wideRows where
  join h := by
    rcases join?_cases h with ⟨a, b, rfl, rfl, rfl⟩ | ⟨w, a, b, as, bs, rfl, rfl, rfl⟩ |
      ⟨as, bs, rfl, rfl, rfl⟩
    · rfl
    · by_cases hw : w ≤ Raster.maxRowBytes <;> simp [Instruction.wideRows, hw]
    · rfl
  absent {i} h := by
    cases i with
    | raster w rows data =>
        simp only [isAbsent, Bool.and_eq_true, beq_iff_eq] at h
        simp [Instruction.wideRows, h.1]
    | _ => rfl

theorem starters_of_found {i : Instruction} (h : i.Found) : i.starters = 0 := by
  cases i with
  | text bytes =>
      obtain ⟨b, rfl, hesc, hgs⟩ := h
      simp [Instruction.starters, hesc, hgs]
  | _ => rfl

theorem wideRows_of_found {i : Instruction} (h : i.Found) : i.wideRows = 0 := by
  cases i with
  | raster w rows data => exact if_pos h.1
  | _ => rfl

/-- The two characters bring the bytes of their numbers on every page. -/
theorem plain_of_starters {page : CodePage} {s : String}
    (h : (Instruction.text (page.encode s)).starters = 0) : CodePage.Plain s := by
  have hnone := List.countP_eq_zero.mp h
  intro c hc
  have hbyte := hnone _ (List.mem_map_of_mem (f := page.byteOf) hc)
  refine ⟨?_, ?_⟩
  · rintro rfl
    rw [CodePage.byteOf_of_lt (by decide)] at hbyte
    exact hbyte (by decide)
  · rintro rfl
    rw [CodePage.byteOf_of_lt (by decide)] at hbyte
    exact hbyte (by decide)

/-- **What comes back was legible.** -/
theorem legible_of_read {cs : List Command}
    (hconsistent : ∀ r, Command.raster r ∈ cs → r.Consistent)
    {is : List Instruction} (hread : read? (cs.flatMap encode) = some is)
    (hmerged : merged is = merged (cs.flatMap issued)) : ∀ c ∈ cs, Legible c := by
  have hfound := read?_found hread
  have hstarters := additive_starters.zero_of_merged_eq
    (fun i hi => starters_of_found (hfound i hi)) hmerged
  have hwide := additive_wideRows.zero_of_merged_eq
    (fun i hi => wideRows_of_found (hfound i hi)) hmerged
  have hwhole := whole_of_sum_eq (fun k hk => dataLength_le_of_mem_issued hconsistent hk)
    (sum_eq_of_merged_eq (read?_whole hread) hmerged)
  intro c hc
  have hissued {k : Instruction} (hk : k ∈ issued c) : k ∈ cs.flatMap issued :=
    List.mem_flatMap.mpr ⟨c, hc, hk⟩
  cases c with
  | text s page => exact plain_of_starters (hstarters _ (hissued (List.mem_singleton_self _)))
  | raster r =>
      have hmem := hissued (List.mem_singleton_self _)
      refine ⟨hwhole _ hmem, ?_⟩
      have hrows : (if r.widthBytes ≤ Raster.maxRowBytes then 0 else r.height) = 0 := hwide _ hmem
      by_cases hbytes : r.widthBytes ≤ Raster.maxRowBytes
      · exact Or.inl hbytes
      · rw [if_neg hbytes] at hrows
        exact Or.inr hrows
  | _ => trivial

/-- **Commands are read back exactly if all of them are legible.** -/
theorem read_iff_legible {cs : List Command}
    (hrasters : ∀ r, Command.raster r ∈ cs → r.Consistent ∧ 0 < r.widthBytes) :
    (∃ is, read? (cs.flatMap encode) = some is ∧ merged is = merged (cs.flatMap issued)) ↔
      ∀ c ∈ cs, Legible c := by
  constructor
  · rintro ⟨is, hread, hmerged⟩
    exact legible_of_read (fun r hr => (hrasters r hr).1) hread hmerged
  · intro h
    obtain ⟨is, hreads, hamounts⟩ := reads_all fun c hc =>
      reads_legible (h c hc) fun r hr => (hrasters r (hr ▸ hc)).2
    exact ⟨is, hreads.read?_eq, hamounts.merged_eq⟩

end Receipt.EscPos
