/-
A code page can be read back.

A character takes one byte, so what is left to see is that no two characters of a page
share theirs and that no byte is without one.  Both come from the upper half: it is full,
holds nothing of ASCII, and holds no character twice.  A search for the first place of a
character then finds the place it came from.

So there is one way to read the bytes of a page, and it undoes the encoding of any text as
far as that can be undone: a character that is not on the page has become a question mark.
-/
import Mathlib.Data.List.GetD
import Mathlib.Data.List.Nodup
import Mathlib.Logic.ExistsUnique
import Receipt.Proofs.Printer.CodePage

namespace Receipt.CodePage

/-! ### The upper halves -/

theorem toList_rows {s t : String} {l m : List Char} (hs : s.toList = l) (ht : t.toList = m) :
    (s ++ t).toList = l ++ m := by
  rw [String.toList_append, hs, ht]

/-- Whether characters are beyond ASCII and none of them is there twice.  One goes along them
to tell, so that the check of a long table is not a deep one. -/
def isTable : List Char → Bool
  | [] => true
  | c :: rest =>
    decide (0x80 ≤ c.toNat) && rest.all (fun d => c.toNat != d.toNat) && isTable rest

theorem table_of_isTable {l : List Char} (h : isTable l = true) :
    l.Nodup ∧ ∀ c ∈ l, 0x80 ≤ c.toNat := by
  induction l with
  | nil => exact ⟨List.nodup_nil, by simp⟩
  | cons c rest ih =>
      rw [isTable, Bool.and_eq_true, Bool.and_eq_true, decide_eq_true_iff, List.all_eq_true] at h
      obtain ⟨⟨hbeyond, hothers⟩, hrest⟩ := h
      obtain ⟨hnodup, hall⟩ := ih hrest
      refine ⟨List.nodup_cons.mpr ⟨fun hc => ?_, hnodup⟩, List.forall_mem_cons.mpr ⟨hbeyond, hall⟩⟩
      simpa using hothers c hc

/-- The upper half of every page is such a table.  Its text is taken apart row by row and
only the characters are computed with. -/
theorem isTable_upperHalf (page : CodePage) : isTable page.upperHalf = true := by
  have row (l : List Char) : (String.ofList l).toList = l := String.toList_ofList
  have hdrawing : drawing.toList = _ :=
    toList_rows (toList_rows (toList_rows (toList_rows (row _) (row _)) (row _)) (row _)) (row _)
  cases page with
  | cp437 =>
      have haccents : accents437.toList = _ := toList_rows (toList_rows (row _) (row _)) (row _)
      have hrows : upperHalf .cp437 = _ := toList_rows haccents hdrawing
      rw [hrows]
      decide +kernel
  | cp850 =>
      have hrows : upperHalf .cp850 = _ :=
        toList_rows (toList_rows (toList_rows (toList_rows (toList_rows (toList_rows (toList_rows
          (row _) (row _)) (row _)) (row _)) (row _)) (row _)) (row _)) (row _)
      rw [hrows]
      decide +kernel
  | cp860 =>
      have haccents : accents860.toList = _ := toList_rows (toList_rows (row _) (row _)) (row _)
      have hrows : upperHalf .cp860 = _ := toList_rows haccents hdrawing
      rw [hrows]
      decide +kernel

theorem nodup_upperHalf (page : CodePage) : page.upperHalf.Nodup :=
  (table_of_isTable (isTable_upperHalf page)).1

theorem le_of_mem_upperHalf {page : CodePage} {c : Char} (h : c ∈ page.upperHalf) :
    0x80 ≤ c.toNat :=
  (table_of_isTable (isTable_upperHalf page)).2 c h

/-! ### Characters of a page -/

/-- Whether a character is on a page. -/
def Has (page : CodePage) (c : Char) : Prop :=
  c.toNat < 0x80 ∨ c ∈ page.upperHalf

instance (page : CodePage) (c : Char) : Decidable (page.Has c) :=
  inferInstanceAs (Decidable (_ ∨ _))

/-- What a page keeps of a character: itself, or a question mark. -/
def held (page : CodePage) (c : Char) : Char :=
  if page.Has c then c else '?'

/-- The character of a byte. -/
def charOf (page : CodePage) (b : UInt8) : Char :=
  if b.toNat < 0x80 then Char.ofNat b.toNat else page.upperHalf.getD (b.toNat - 0x80) '?'

/-- A character of the upper half has the byte of its place. -/
theorem byteOf_getElem (page : CodePage) {i : Nat} (h : i < page.upperHalf.length) :
    page.byteOf page.upperHalf[i] = (0x80 + i).toUInt8 := by
  have hbeyond := le_of_mem_upperHalf (List.getElem_mem h)
  have hplace : page.upperHalf.idxOf? page.upperHalf[i] = some i := by
    rw [List.idxOf?_eq_some_iff]
    refine ⟨h, rfl, fun j hj heq => ?_⟩
    exact absurd ((nodup_upperHalf page).getElem_inj_iff.mp heq) (Nat.ne_of_lt hj)
  rw [byteOf, if_neg (by omega), hplace]

/-- A character that is not on a page becomes a question mark. -/
theorem byteOf_of_not_has {page : CodePage} {c : Char} (h : ¬page.Has c) :
    page.byteOf c = substitute := by
  obtain ⟨hbeyond, hmem⟩ := not_or.mp h
  rw [byteOf, if_neg hbeyond, List.idxOf?_eq_none_iff.mpr hmem]

theorem charOf_toUInt8 (page : CodePage) {n : Nat} (h : n < 0x80) :
    page.charOf n.toUInt8 = Char.ofNat n := by
  have hn : n.toUInt8.toNat = n := by
    rw [UInt8.toNat_ofNat']
    omega
  rw [charOf, hn, if_pos h]

/-! ### Reading back -/

/-- **No byte is without a character.** -/
theorem byteOf_charOf (page : CodePage) (b : UInt8) :
    page.Has (page.charOf b) ∧ page.byteOf (page.charOf b) = b := by
  by_cases hb : b.toNat < 0x80
  · have hchar : (Char.ofNat b.toNat).toNat = b.toNat := by
      unfold Char.ofNat
      rw [dif_pos (Or.inl (by omega))]
      rfl
    rw [charOf, if_pos hb]
    refine ⟨Or.inl (by rw [hchar]; exact hb), ?_⟩
    rw [byteOf_of_lt (by rw [hchar]; exact hb), hchar]
    exact UInt8.ofNat_toNat
  · have hlt : b.toNat - 0x80 < page.upperHalf.length := by
      have := b.toNat_lt
      rw [length_upperHalf]
      omega
    rw [charOf, if_neg hb, List.getD_eq_getElem _ _ hlt]
    refine ⟨Or.inr (List.getElem_mem hlt), ?_⟩
    rw [byteOf_getElem page hlt, Nat.add_sub_cancel' (by omega)]
    exact UInt8.ofNat_toNat

/-- **The byte of a character is read as what the page keeps of it.** -/
theorem charOf_byteOf (page : CodePage) (c : Char) :
    page.charOf (page.byteOf c) = page.held c := by
  by_cases hhas : page.Has c
  · rw [held, if_pos hhas]
    rcases hhas with hascii | hmem
    · rw [byteOf_of_lt hascii, charOf_toUInt8 page hascii, Char.ofNat_toNat]
    · obtain ⟨i, hi, rfl⟩ := List.getElem_of_mem hmem
      have hlt : i < 128 := length_upperHalf page ▸ hi
      have hbyte : (0x80 + i).toUInt8.toNat = 0x80 + i := by
        rw [UInt8.toNat_ofNat']
        omega
      rw [byteOf_getElem page hi, charOf, hbyte, if_neg (by omega), Nat.add_sub_cancel_left,
        List.getD_eq_getElem _ _ hi]
  · rw [held, if_neg hhas, byteOf_of_not_has hhas]
    rfl

/-- No two characters of a page share a byte. -/
theorem byteOf_inj {page : CodePage} {c d : Char} (hc : page.Has c) (hd : page.Has d)
    (h : page.byteOf c = page.byteOf d) : c = d := by
  have heq := congrArg page.charOf h
  rwa [charOf_byteOf, charOf_byteOf, held, held, if_pos hc, if_pos hd] at heq

theorem encode_append (page : CodePage) (s t : String) :
    page.encode (s ++ t) = page.encode s ++ page.encode t := by
  unfold encode
  rw [String.toList_append, List.map_append]

/-- A way to read bytes is one of a page if it undoes its encoding, as far as that can be
undone, and is undone by it. -/
structure ReadBy (page : CodePage) (char : UInt8 → Char) : Prop where
  char_encode : ∀ s : String, (page.encode s).map char = s.toList.map page.held
  encode_char : ∀ bytes : List UInt8, page.encode (String.ofList (bytes.map char)) = bytes

theorem readBy_charOf (page : CodePage) : page.ReadBy page.charOf where
  char_encode s := by
    unfold encode
    rw [List.map_map]
    exact List.map_congr_left fun c _ => charOf_byteOf page c
  encode_char bytes := by
    unfold encode
    rw [String.toList_ofList, List.map_map]
    refine (List.map_congr_left fun b _ => ?_).trans (List.map_id bytes)
    exact (byteOf_charOf page b).2

/-- There is no other way: every byte is that of some text. -/
theorem ReadBy.eq_charOf {page : CodePage} {char : UInt8 → Char} (h : page.ReadBy char) :
    char = page.charOf := by
  funext b
  obtain ⟨hhas, hbyte⟩ := byteOf_charOf page b
  have hread := h.char_encode (String.ofList [page.charOf b])
  unfold encode at hread
  rw [String.toList_ofList] at hread
  simp only [List.map_cons, List.map_nil, hbyte, held, if_pos hhas, List.cons.injEq,
    and_true] at hread
  exact hread

/-- **Every page has one decoding, which undoes its encoding.**  A text takes a byte for each
of its characters, and the bytes are read back as those characters, but for those that are
not on the page; any bytes at all are the encoding of what they are read as.  ASCII is on
every page.  Hence no two characters of a page share a byte and no byte is without a
character.  Texts are encoded piece by piece. -/
theorem encode_invertible (page : CodePage) :
    (∃! char : UInt8 → Char, page.ReadBy char) ∧
    (∀ s : String, (page.encode s).length = s.length) ∧
    (∀ c : Char, c.toNat < 0x80 → page.byteOf c = c.toNat.toUInt8 ∧ page.held c = c) ∧
    (∀ c d : Char, page.Has c → page.Has d → page.byteOf c = page.byteOf d → c = d) ∧
    (∀ b : UInt8, ∃ c : Char, page.Has c ∧ page.byteOf c = b) ∧
    ∀ s t : String, page.encode (s ++ t) = page.encode s ++ page.encode t := by
  refine ⟨⟨page.charOf, readBy_charOf page, fun char h => h.eq_charOf⟩, ?_, ?_, ?_, ?_,
    encode_append page⟩
  · intro s
    exact List.length_map page.byteOf
  · intro c hc
    exact ⟨byteOf_of_lt hc, if_pos (Or.inl hc)⟩
  · exact fun c d => byteOf_inj
  · exact fun b => ⟨page.charOf b, byteOf_charOf page b⟩

end Receipt.CodePage
