/-
Which bytes a code page gives to which characters.

The lower half of a page is ASCII and every other character goes to its upper half
or becomes a question mark.  So a byte of the lower half, the question mark apart,
comes from one character only: the one with its number.  In particular no text
brings a byte that starts a command unless it holds the control character itself.
-/
import Receipt.Printer.Dialect

namespace Receipt.CodePage

/-! ### The tables

The tables are written in rows of 16 characters, and are measured row by row: a
whole table at once is too long a text to compute with.
-/

theorem length_row (l : List Char) : (String.ofList l).toList.length = l.length :=
  congrArg List.length String.toList_ofList

theorem length_rows {s t : String} {m n : Nat} (hs : s.toList.length = m)
    (ht : t.toList.length = n) : (s ++ t).toList.length = m + n := by
  rw [String.toList_append, List.length_append, hs, ht]

theorem length_accents437 : accents437.toList.length = 48 :=
  length_rows (length_rows (length_row _) (length_row _)) (length_row _)

theorem length_accents860 : accents860.toList.length = 48 :=
  length_rows (length_rows (length_row _) (length_row _)) (length_row _)

theorem length_drawing : drawing.toList.length = 80 :=
  length_rows (length_rows (length_rows (length_rows (length_row _) (length_row _))
    (length_row _)) (length_row _)) (length_row _)

theorem length_western : western.toList.length = 128 :=
  length_rows (m := 112) (length_rows (m := 96) (length_rows (m := 80) (length_rows (m := 64)
    (length_rows (m := 48) (length_rows (m := 32) (length_rows (m := 16) (length_row _)
    (length_row _)) (length_row _)) (length_row _)) (length_row _)) (length_row _))
    (length_row _)) (length_row _)

/-- The upper half of every page is full. -/
theorem length_upperHalf (page : CodePage) : page.upperHalf.length = 128 := by
  cases page with
  | cp437 => exact length_rows length_accents437 length_drawing
  | cp850 => exact length_western
  | cp860 => exact length_rows length_accents860 length_drawing

/-- The byte of a character of the lower half has its number. -/
theorem byteOf_of_lt {page : CodePage} {c : Char} (h : c.toNat < 0x80) :
    page.byteOf c = c.toNat.toUInt8 := by
  rw [byteOf, if_pos h]

/-- Any other character has a byte of the upper half, or becomes a question mark. -/
theorem byteOf_of_le (page : CodePage) {c : Char} (h : 0x80 ≤ c.toNat) :
    page.byteOf c = substitute ∨ 0x80 ≤ page.byteOf c := by
  rw [byteOf, if_neg (by omega)]
  cases hi : page.upperHalf.idxOf? c with
  | none => exact Or.inl rfl
  | some i =>
      right
      obtain ⟨hlt, -⟩ := List.idxOf?_eq_some_iff.mp hi
      rw [length_upperHalf] at hlt
      rw [UInt8.le_iff_toNat_le]
      show 128 ≤ (0x80 + i).toUInt8.toNat
      rw [UInt8.toNat_ofNat']
      omega

/-- **A byte of the lower half that is no question mark comes from the character
with its number.** -/
theorem toNat_eq_of_byteOf {page : CodePage} {c : Char} {b : UInt8} (hb : b < 0x80)
    (hq : b ≠ substitute) (h : page.byteOf c = b) : c.toNat = b.toNat := by
  by_cases hc : c.toNat < 0x80
  · rw [byteOf_of_lt hc] at h
    rw [← h, UInt8.toNat_ofNat']
    omega
  · rcases byteOf_of_le page (Nat.not_lt.mp hc) with hs | hu
    · exact absurd (h.symm.trans hs) hq
    · rw [h] at hu
      exact absurd hb (UInt8.not_lt.mpr hu)

/-- A text without the two characters that start commands. -/
def Plain (s : String) : Prop :=
  ∀ c ∈ s.toList, c ≠ '\x1b' ∧ c ≠ '\x1d'

instance (s : String) : Decidable (Plain s) :=
  List.decidableBAll (fun c => c ≠ '\x1b' ∧ c ≠ '\x1d') s.toList

/-- Such a text brings neither of the bytes that start commands. -/
theorem encode_plain {page : CodePage} {s : String} (h : Plain s) :
    ∀ b ∈ page.encode s, b ≠ esc ∧ b ≠ gs := by
  intro b hb
  obtain ⟨c, hc, rfl⟩ := List.mem_map.mp hb
  obtain ⟨hesc, hgs⟩ := h c hc
  constructor
  · intro he
    exact hesc (Char.toNat_inj.mp (toNat_eq_of_byteOf (by decide) (by decide) he))
  · intro he
    exact hgs (Char.toNat_inj.mp (toNat_eq_of_byteOf (by decide) (by decide) he))

end Receipt.CodePage
