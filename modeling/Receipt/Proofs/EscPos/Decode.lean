/-
A stream of ESC/POS bytes says what was issued, and nothing else.

`issued` is what a command tells a printer, dialect aside.  `Reads bytes is` says
that the reader finds `is` in the bytes whatever stands behind them; that is the
statement which composes, and it holds of the bytes of every command that is
`Readable`.
-/
import Receipt.Proofs.EscPos.Merge
import Receipt.Proofs.Printer.Modes
import Receipt.Proofs.Printer.CodePage

namespace Receipt.EscPos

open Instruction

/-- What a command tells a printer. -/
def issued : Command → List Instruction
  | .reset => [.reset]
  | .align a => [.align a]
  | .size s => [.size s.clamped]
  | .bold on => [.bold on]
  | .text s page => [.text (page.encode s)]
  | .feed lines => [.feed lines]
  | .cut c lines => [.feed lines, .cut c]
  | .raster r => [.raster r.widthBytes r.height r.data]
  | .codePage page => [.codePage page]

/-- The reader finds the instructions in the bytes and goes on behind them. -/
def Reads (bytes : List UInt8) (is : List Instruction) : Prop :=
  ∀ rest, read? (bytes ++ rest) = (read? rest).map (is ++ ·)

theorem Reads.nil : Reads [] [] := by
  intro rest
  simp

theorem Reads.append {as bs : List UInt8} {is ks : List Instruction} (h : Reads as is)
    (h' : Reads bs ks) : Reads (as ++ bs) (is ++ ks) := by
  intro rest
  rw [List.append_assoc, h, h', Option.map_map]
  congr 1
  funext l
  exact (List.append_assoc is ks l).symm

theorem reads_one {bytes : List UInt8} {i : Instruction}
    (h : ∀ rest, readOne? (bytes ++ rest) = some (i, rest)) : Reads bytes [i] :=
  fun rest => read?_of_readOne? (h rest)

/-- All that was issued can be read to its end. -/
theorem Reads.read?_eq {bytes : List UInt8} {is : List Instruction} (h : Reads bytes is) :
    read? bytes = some is := by
  have hnil := h []
  rw [List.append_nil, read?_nil] at hnil
  simpa using hnil

/-! ### Commands of fixed length -/

theorem readOne?_esc {c : UInt8} (hc : c ≠ 0x40) (rest : List UInt8) :
    readOne? (esc :: c :: rest) = readParameter? (escInstruction? c) rest := by
  simp only [readOne?, if_true, if_neg hc]

theorem readOne?_gs {c : UInt8} (hc : c ≠ 0x76) (rest : List UInt8) :
    readOne? (gs :: c :: rest) = readParameter? (gsInstruction? c) rest := by
  have hgs : gs ≠ esc := by decide
  simp only [readOne?, if_neg hgs, if_true, if_neg hc]

theorem reads_esc {c n : UInt8} {i : Instruction} (hc : c ≠ 0x40)
    (h : escInstruction? c n = some i) : Reads [esc, c, n] [i] := by
  refine reads_one fun rest => ?_
  rw [List.cons_append, List.cons_append, readOne?_esc hc]
  show (escInstruction? c n).map _ = _
  rw [h]
  rfl

theorem reads_gs {c n : UInt8} {i : Instruction} (hc : c ≠ 0x76)
    (h : gsInstruction? c n = some i) : Reads [gs, c, n] [i] := by
  refine reads_one fun rest => ?_
  rw [List.cons_append, List.cons_append, readOne?_gs hc]
  show (gsInstruction? c n).map _ = _
  rw [h]
  rfl

theorem reads_reset : Reads [esc, 0x40] [.reset] :=
  reads_one fun _ => rfl

theorem reads_align (a : Alignment) : Reads [esc, 0x61, a.number] [.align a] :=
  reads_esc (by decide) (by cases a <;> decide)

theorem reads_bold (on : Bool) : Reads [esc, 0x45, flagByte on] [.bold on] :=
  reads_esc (by decide) (by cases on <;> decide)

theorem reads_codePage (page : CodePage) :
    Reads [esc, 0x74, page.tableNumber] [.codePage page] :=
  reads_esc (by decide) (by cases page <;> decide)

def axes : List UInt8 := [1, 2, 3, 4, 5, 6, 7, 8]

theorem mem_axes {n : UInt8} (hlo : 1 ≤ n) (hhi : n ≤ 8) : n ∈ axes := by
  have hall : ∀ k < 9, 1 ≤ k → UInt8.ofNat k ∈ axes := by decide
  have h := hall n.toNat (Nat.lt_succ_of_le hhi) hlo
  rwa [UInt8.ofNat_toNat] at h

/-- One byte holds both magnifications. -/
theorem sizeOf_sizeByte (s : CharacterSize) : sizeOf (sizeByte s) = s.clamped := by
  have hbytes : (axes.all fun w => axes.all fun h =>
      sizeOf (((w - 1) <<< 4) ||| (h - 1)) == ⟨w, h⟩) = true := by decide
  obtain ⟨⟨hw₁, hw₂⟩, hh₁, hh₂⟩ := CharacterSize.known_clamped s
  have hwidth := List.all_eq_true.mp hbytes _ (mem_axes hw₁ hw₂)
  exact eq_of_beq (List.all_eq_true.mp hwidth _ (mem_axes hh₁ hh₂))

theorem reads_size (s : CharacterSize) : Reads [gs, 0x21, sizeByte s] [.size s.clamped] := by
  rw [← sizeOf_sizeByte s]
  exact reads_gs (by decide) rfl

/-! ### Text and feeds -/

theorem reads_text {bytes : List UInt8} (h : ∀ b ∈ bytes, b ≠ esc ∧ b ≠ gs) :
    Reads bytes (bytes.map fun b => .text [b]) := by
  induction bytes with
  | nil => exact Reads.nil
  | cons b tail ih =>
      obtain ⟨hesc, hgs⟩ := h b (by simp)
      have hone : Reads [b] [.text [b]] := by
        refine reads_one fun rest => ?_
        unfold readOne?
        rw [List.cons_append]
        simp only [if_neg hesc, if_neg hgs, List.nil_append]
      exact hone.append (ih fun c hc => h c (by simp [hc]))

theorem reads_feeds (counts : List UInt8) :
    Reads (counts.flatMap fun n => [esc, 0x64, n]) (counts.map fun n => .feed n.toNat) := by
  induction counts with
  | nil => exact Reads.nil
  | cons n rest ih => exact (reads_esc (by decide) rfl).append ih

/-- The parts of a count add up to it. -/
theorem sum_byteParts (total : Nat) : ((byteParts total).map UInt8.toNat).sum = total := by
  unfold byteParts
  rw [List.map_append, List.sum_append, List.map_replicate, List.sum_replicate]
  by_cases h : total % 255 = 0
  · rw [if_pos h]
    show total / 255 * 255 + 0 = total
    omega
  · rw [if_neg h]
    show total / 255 * 255 + ((total % 255).toUInt8.toNat + 0) = total
    rw [UInt8.toNat_ofNat']
    omega

theorem reads_feed (lines : Nat) :
    ∃ is, Reads (feed lines) is ∧ AmountsTo is [.feed lines] := by
  refine ⟨_, reads_feeds (byteParts lines), ?_⟩
  have h := amountsTo_feed ((byteParts lines).map UInt8.toNat)
  rw [sum_byteParts, List.map_map] at h
  exact h

theorem reads_cut (c : Cut) (lines : Nat) :
    ∃ is, Reads (encode (.cut c lines)) is ∧ AmountsTo is [.feed lines, .cut c] := by
  obtain ⟨is, hr, ha⟩ := reads_feed lines
  refine ⟨is ++ [.cut c], ?_, ha.append (AmountsTo.refl _)⟩
  cases c with
  | full => exact hr.append (reads_gs (by decide) rfl)
  | partly => exact hr.append (reads_gs (by decide) rfl)

/-! ### Rasters -/

/-- Two bytes tell the lowest 16 bits of a number. -/
theorem number16_parts (n : Nat) : number16 n.toUInt8 (n / 256).toUInt8 = n % 65536 := by
  unfold number16
  rw [UInt8.toNat_ofNat', UInt8.toNat_ofNat']
  omega

/-- A header with as much data behind it as it tells of, which is told in 16 bits. -/
theorem reads_raster (rowBytes rows : Nat) (data : List UInt8)
    (hlen : data.length = rowBytes % 65536 * (rows % 65536)) :
    Reads ([gs, 0x76, 0x30, 0] ++ littleEndian16 rowBytes ++ littleEndian16 rows ++ data)
      [.raster (rowBytes % 65536) (rows % 65536) data] := by
  refine reads_one fun rest => ?_
  show readRaster? (0x30 :: 0 :: rowBytes.toUInt8 :: (rowBytes / 256).toUInt8 ::
    rows.toUInt8 :: (rows / 256).toUInt8 :: (data ++ rest)) = _
  simp only [readRaster?, number16_parts, ← hlen]
  rw [if_pos ⟨trivial, trivial, by simp⟩, List.take_left, List.drop_left]

theorem reads_band {rowBytes rows : Nat} {data : List UInt8} (hpos : 0 < rowBytes)
    (hbytes : rowBytes ≤ 65535) (hrows : rows ≤ 65535) (hlen : data.length = rowBytes * rows) :
    Reads (band rowBytes data) [.raster rowBytes rows data] := by
  have hdiv : data.length / rowBytes = rows := by
    rw [hlen, Nat.mul_div_cancel_left rows hpos]
  have hx : rowBytes % 65536 = rowBytes := Nat.mod_eq_of_lt (by omega)
  have hy : rows % 65536 = rows := Nat.mod_eq_of_lt (by omega)
  have hread := reads_raster rowBytes rows data (by rw [hx, hy, hlen])
  rw [hx, hy] at hread
  unfold band
  rw [hdiv]
  exact hread

/-- **Data of whole rows is cut by rows.**  What holds of no rows, and of a part of 256 rows
or of all that are left before the parts of the others, holds of all parts. -/
theorem parts_rows {rowBytes : Nat} (hpos : 0 < rowBytes)
    (P : Nat → List UInt8 → List (List UInt8) → Prop) (none : P 0 [] [])
    (part : ∀ {rows : Nat} {data : List UInt8} {ps : List (List UInt8)}, 0 < rows →
      (data.take (rowBytes * bandRows)).length = rowBytes * min bandRows rows →
      P (rows - min bandRows rows) (data.drop (rowBytes * bandRows)) ps →
      P rows data (data.take (rowBytes * bandRows) :: ps))
    {rows : Nat} {data : List UInt8} (hlen : data.length = rowBytes * rows) :
    P rows data (parts (rowBytes * bandRows) data) := by
  -- Without data there are no rows.
  have none_left {rows : Nat} (hlen : ([] : List UInt8).length = rowBytes * rows) :
      P rows [] [] := by
    rcases Nat.mul_eq_zero.mp hlen.symm with h | h
    · omega
    · rw [h]
      exact none
  have go (fuel : Nat) : ∀ {rows : Nat} {data : List UInt8}, data.length ≤ fuel →
      data.length = rowBytes * rows →
      P rows data (parts.go (rowBytes * bandRows) fuel data) := by
    induction fuel with
    | zero =>
        intro rows data hfuel hlen
        obtain rfl := List.eq_nil_of_length_eq_zero (Nat.le_zero.mp hfuel)
        exact none_left hlen
    | succ fuel ih =>
        intro rows data hfuel hlen
        unfold parts.go
        by_cases hdata : data = []
        · subst hdata
          exact none_left hlen
        · rw [if_neg (by simp [hdata])]
          have hsome := List.length_pos_iff.mpr hdata
          have htake : (data.take (rowBytes * bandRows)).length = rowBytes * min bandRows rows := by
            rw [List.length_take, hlen, Nat.mul_min_mul_left]
          have hdrop : (data.drop (rowBytes * bandRows)).length
              = rowBytes * (rows - min bandRows rows) := by
            rw [List.length_drop, Nat.mul_sub, ← htake, List.length_take, hlen]
            omega
          have hless : (data.drop (rowBytes * bandRows)).length ≤ fuel := by
            have hband : 0 < rowBytes * bandRows := Nat.mul_pos hpos (by decide)
            rw [List.length_drop]
            omega
          exact part (Nat.pos_of_mul_pos_left (hlen ▸ hsome)) htake (ih hless hdrop)
  exact go data.length (Nat.le_refl _) hlen

/-- Bands are a raster of the rows of all. -/
theorem reads_bands {rowBytes : Nat} (hpos : 0 < rowBytes) (hbytes : rowBytes ≤ 65535)
    {rows : Nat} {data : List UInt8} (hlen : data.length = rowBytes * rows) :
    ∃ is, Reads ((parts (rowBytes * bandRows) data).flatMap (band rowBytes)) is ∧
      AmountsTo is [.raster rowBytes rows data] := by
  refine parts_rows hpos (fun rows data ps => ∃ is, Reads (ps.flatMap (band rowBytes)) is ∧
    AmountsTo is [.raster rowBytes rows data]) ⟨[], Reads.nil, amountsTo_absent rfl⟩ ?_ hlen
  rintro rows data ps - htake ⟨is, hr, ha⟩
  have hrows : min bandRows rows ≤ 65535 := le_trans (Nat.min_le_left _ _) (by decide)
  refine ⟨_, (reads_band hpos hbytes hrows htake).append hr, ha.join ?_⟩
  simp only [join?, if_true, List.take_append_drop]
  rw [Nat.add_sub_cancel' (Nat.min_le_right _ _)]

/-! ### Commands -/

/-- A command whose bytes can be read: a text without control characters that start
commands, or a raster with as much data as its dimensions ask for. -/
def Readable : Command → Prop
  | .text s _ => CodePage.Plain s
  | .raster r => 0 < r.widthBytes ∧ r.widthBytes ≤ 65535 ∧
      r.data.length = r.widthBytes * r.height
  | _ => True

/-- **The bytes of a command are read as what was issued, in parts maybe.** -/
theorem reads_encode {c : Command} (h : Readable c) :
    ∃ is, Reads (encode c) is ∧ AmountsTo is (issued c) := by
  cases c with
  | reset => exact ⟨_, reads_reset, AmountsTo.refl _⟩
  | align a => exact ⟨_, reads_align a, AmountsTo.refl _⟩
  | size s => exact ⟨_, reads_size s, AmountsTo.refl _⟩
  | bold on => exact ⟨_, reads_bold on, AmountsTo.refl _⟩
  | text s page => exact ⟨_, reads_text (CodePage.encode_plain h), amountsTo_text _⟩
  | feed lines => exact reads_feed lines
  | cut c lines => exact reads_cut c lines
  | raster r =>
      obtain ⟨hpos, hbytes, hlen⟩ := h
      exact reads_bands hpos hbytes hlen
  | codePage page => exact ⟨_, reads_codePage page, AmountsTo.refl _⟩

/-- What holds of the bytes of each command holds of the bytes of all. -/
theorem reads_all {cs : List Command}
    (h : ∀ c ∈ cs, ∃ is, Reads (encode c) is ∧ AmountsTo is (issued c)) :
    ∃ is, Reads (cs.flatMap encode) is ∧ AmountsTo is (cs.flatMap issued) := by
  induction cs with
  | nil => exact ⟨[], Reads.nil, AmountsTo.refl _⟩
  | cons c rest ih =>
      obtain ⟨is, hr, ha⟩ := h c (by simp)
      obtain ⟨ks, hr', ha'⟩ := ih fun d hd => h d (by simp [hd])
      exact ⟨is ++ ks, hr.append hr', ha.append ha'⟩

end Receipt.EscPos
