/-
Base64 comes back as the bytes that were written, whatever became of the text on its way.

The text is read strictly first, and only if that fails once more without any padding.  So two
things have to hold.  The strict reading, wherever it accepts a text, must have found the right
bytes: the padding decides whether the last group is accepted and never what it stands for.  And
the second reading must accept whatever was written: behind the groups of four stand no symbol, two
or three, and their last bits are zero.
-/
import Mathlib.Data.List.DropRight
import Receipt.Image.Base64
import Receipt.Proofs.Steps

namespace Receipt.Base64

/-! ### The standard text of bytes -/

/-- The symbols in the order of the six bits that they stand for. -/
def alphabet : List Char :=
  ['A', 'B', 'C', 'D', 'E', 'F', 'G', 'H', 'I', 'J', 'K', 'L', 'M',
    'N', 'O', 'P', 'Q', 'R', 'S', 'T', 'U', 'V', 'W', 'X', 'Y', 'Z',
    'a', 'b', 'c', 'd', 'e', 'f', 'g', 'h', 'i', 'j', 'k', 'l', 'm',
    'n', 'o', 'p', 'q', 'r', 's', 't', 'u', 'v', 'w', 'x', 'y', 'z',
    '0', '1', '2', '3', '4', '5', '6', '7', '8', '9',
    '+', '/']

def symbol (v : Nat) : Char :=
  alphabet.getD v 'A'

/-- The bits of bytes, six by six from the highest on, with zeros behind the last ones. -/
def sextets : List UInt8 → List Nat
  | a :: b :: c :: rest =>
    let n := a.toNat * 65536 + b.toNat * 256 + c.toNat
    n / 262144 :: n / 4096 % 64 :: n / 64 % 64 :: n % 64 :: sextets rest
  | [a, b] =>
    let n := a.toNat * 1024 + b.toNat * 4
    [n / 4096, n / 64 % 64, n % 64]
  | [a] =>
    let n := a.toNat * 16
    [n / 64, n % 64]
  | [] => []

/-- The text of bytes, filled up to whole groups of four. -/
def encode (bytes : List UInt8) : List Char :=
  let symbols := (sextets bytes).map symbol
  symbols ++ List.replicate ((4 - symbols.length % 4) % 4) '='

/-- The blanks of ASCII. -/
def blanks : List Char :=
  [' ', '\t', '\n', '\x0c', '\r']

/-- A text with blanks between its characters, before them and behind them. -/
inductive Interspersed : List Char → List Char → Prop
  | nil : Interspersed [] []
  | keep {text spread : List Char} (c : Char) (rest : Interspersed text spread) :
      Interspersed (c :: text) (c :: spread)
  | blank {text spread : List Char} {c : Char} (h : c ∈ blanks)
      (rest : Interspersed text spread) : Interspersed text (c :: spread)

/-- What is left of the text of bytes on its way: its padding is lost, any other may have been
put in its place, and blanks may stand anywhere. -/
def Payload (bytes : List UInt8) (payload : String) : Prop :=
  ∃ n, Interspersed ((encode bytes).rdropWhile (· == '=') ++ List.replicate n '=') payload.toList

/-! ### Symbols -/

/-- The byte of a character of ASCII. -/
def byte (c : Char) : UInt8 :=
  c.val.toUInt8

theorem symbol_spec : ∀ v < 64, value? (byte (symbol v)) = some v ∧ symbol v ≠ '=' ∧
    isBlank (byte (symbol v)) = false ∧ (symbol v).val ≤ 127 := by
  decide +kernel

theorem sextets_lt (bytes : List UInt8) : ∀ v ∈ sextets bytes, v < 64 := by
  induction bytes using sextets.induct with
  | case1 a b c rest ih =>
      have ha := a.toNat_lt
      have hb := b.toNat_lt
      have hc := c.toNat_lt
      simp only [sextets, List.forall_mem_cons]
      exact ⟨by omega, by omega, by omega, by omega, ih⟩
  | case2 a b =>
      have ha := a.toNat_lt
      have hb := b.toNat_lt
      simp [sextets]
      omega
  | case3 a =>
      have ha := a.toNat_lt
      simp [sextets]
      omega
  | case4 => simp [sextets]

/-! ### Groups -/

/-- The bytes of symbols: those of groups of four, and those of a shorter group behind them. -/
def bytesOf : List Nat → List UInt8
  | a :: b :: c :: d :: rest => groupBytes [a, b, c, d] ++ bytesOf rest
  | rest => groupBytes rest

theorem toUInt8_eq {n : Nat} {b : UInt8} (h : n % 256 = b.toNat) : n.toUInt8 = b :=
  UInt8.toNat_inj.mp (by simpa using h)

/-- **The bits of bytes are those bytes again.** -/
theorem bytesOf_sextets (bytes : List UInt8) : bytesOf (sextets bytes) = bytes := by
  induction bytes using sextets.induct with
  | case1 a b c rest ih =>
      have ha := a.toNat_lt
      have hb := b.toNat_lt
      have hc := c.toNat_lt
      simp only [sextets, bytesOf, groupBytes, ih, List.cons_append, List.nil_append,
        List.cons.injEq, and_true]
      exact ⟨toUInt8_eq (by omega), toUInt8_eq (by omega), toUInt8_eq (by omega)⟩
  | case2 a b =>
      have ha := a.toNat_lt
      have hb := b.toNat_lt
      simp only [sextets, bytesOf, groupBytes, List.cons.injEq, and_true]
      exact ⟨toUInt8_eq (by omega), toUInt8_eq (by omega)⟩
  | case3 a =>
      have ha := a.toNat_lt
      simp only [sextets, bytesOf, groupBytes, List.cons.injEq, and_true]
      exact toUInt8_eq (by omega)
  | case4 => rfl

theorem wholeGroups_append_groupBytes (whole last : List Nat) (hwhole : 4 ∣ whole.length)
    (hlast : last.length ≤ 4) :
    wholeGroups whole ++ groupBytes last = bytesOf (whole ++ last) := by
  induction whole using wholeGroups.induct with
  | case1 a b c d rest ih =>
      have hrest : 4 ∣ rest.length := by
        simp only [List.length_cons] at hwhole
        omega
      rw [wholeGroups, List.append_assoc, ih hrest]
      rfl
  | case2 whole hshort =>
      have hnil : whole = [] := by
        match whole with
        | [] => rfl
        | [_] | [_, _] | [_, _, _] =>
            simp only [List.length_cons, List.length_nil] at hwhole
            omega
        | a :: b :: c :: d :: rest => exact absurd rfl (hshort a b c d rest)
      subst hnil
      have hnone : wholeGroups [] = [] := rfl
      rw [hnone, List.nil_append, List.nil_append]
      match last with
      | [] | [_] | [_, _] | [_, _, _] => rfl
      | [_, _, _, _] => exact (List.append_nil _).symm
      | _ :: _ :: _ :: _ :: _ :: _ =>
          simp only [List.length_cons] at hlast
          omega

/-- Values in groups of four, of which the last one may be shorter, but not a single value, and
has no bits that belong to no byte. -/
structure Grouped (whole last : List Nat) : Prop where
  dvd_length : 4 ∣ whole.length
  eq_nil : last = [] → whole = []
  length_le : last.length ≤ 4
  length_ne : last.length ≠ 1
  restBits_eq : restBits last = 0

theorem exists_grouped (bytes : List UInt8) :
    ∃ whole last, sextets bytes = whole ++ last ∧ Grouped whole last := by
  induction bytes using sextets.induct with
  | case1 a b c rest ih =>
      obtain ⟨whole, last, hsplit, hgrouped⟩ := ih
      rw [sextets, hsplit]
      by_cases hlast : last = []
      · -- The group of these three bytes is the last one.
        obtain rfl := hgrouped.eq_nil hlast
        subst hlast
        exact ⟨[], _, rfl, by simp, by simp, by simp, by simp, rfl⟩
      · refine ⟨_ :: _ :: _ :: _ :: whole, last, rfl, ?_, fun h => absurd h hlast,
          hgrouped.length_le, hgrouped.length_ne, hgrouped.restBits_eq⟩
        simpa [List.length_cons] using hgrouped.dvd_length
  | case2 a b =>
      refine ⟨[], _, rfl, by simp, by simp, by simp, by simp, ?_⟩
      simp only [restBits]
      omega
  | case3 a =>
      refine ⟨[], _, rfl, by simp, by simp, by simp, by simp, ?_⟩
      simp only [restBits]
      omega
  | case4 => exact ⟨[], [], rfl, by simp, by simp, by simp, by simp, rfl⟩

/-! ### Reading -/

variable {values : List Nat}

/-- The byte of the symbol of a value. -/
def symbolByte (v : Nat) : UInt8 :=
  byte (symbol v)

theorem symbolByte_ne_pad {v : Nat} (h : v < 64) : symbolByte v ≠ pad := by
  intro hpad
  have hvalue := (symbol_spec v h).1
  unfold symbolByte at hpad
  rw [hpad] at hvalue
  exact nomatch hvalue

theorem symbolsAt_symbols (h : ∀ v ∈ values, v < 64) (offset : Nat) :
    symbolsAt offset (values.map symbolByte) = .ok values := by
  induction values generalizing offset with
  | nil => rfl
  | cons v rest ih =>
      obtain ⟨hv, hrest⟩ := List.forall_mem_cons.mp h
      have hvalue : value? (symbolByte v) = some v := (symbol_spec v hv).1
      rw [List.map_cons, symbolsAt, hvalue]
      dsimp only
      rw [ih hrest]
      rfl

/-- No padding stands among the symbols of complete groups. -/
theorem pad_not_mem_of_symbolsAt {offset : Nat} {input : List UInt8} {symbols : List Nat}
    (h : symbolsAt offset input = .ok symbols) : pad ∉ input := by
  induction input generalizing offset symbols with
  | nil => simp
  | cons b rest ih =>
      rw [symbolsAt] at h
      cases hvalue : value? b with
      | none =>
          rw [hvalue] at h
          exact nomatch h
      | some v =>
          rw [hvalue] at h
          dsimp only at h
          cases hrest : symbolsAt (offset + 1) rest with
          | error e =>
              rw [hrest] at h
              exact nomatch h
          | ok others =>
              intro hmem
              rcases List.mem_cons.mp hmem with rfl | hmem
              · simp [value?, pad] at hvalue
              · exact ih hrest hmem

/-- The last group is read to its end, with the padding behind it. -/
theorem lastGroup_symbols (h : ∀ v ∈ values, v < 64) (offset seen pads : Nat) :
    lastGroup offset seen (values.map symbolByte ++ List.replicate pads pad) =
      if seen + values.length < 2 ∧ 0 < pads then
        .error (.symbol pad (offset + (seen + values.length)))
      else .ok (values, pads) := by
  induction values generalizing seen with
  | nil =>
      cases pads with
      | zero => simp [lastGroup]
      | succ pads => simp [List.replicate_succ, lastGroup]
  | cons v rest ih =>
      obtain ⟨hv, hrest⟩ := List.forall_mem_cons.mp h
      have hvalue : value? (symbolByte v) = some v := (symbol_spec v hv).1
      rw [List.map_cons, List.cons_append, lastGroup, if_neg (symbolByte_ne_pad hv), hvalue]
      dsimp only
      rw [ih hrest (seen + 1), List.length_cons, Nat.add_right_comm seen 1, Nat.add_assoc]
      split <;> rfl

/-- What is read of the last group is what its symbols stand for. -/
theorem exists_lastGroup {p : Padding} {offset : Nat} {input bytes : List UInt8}
    (hok : lastBytes p offset input = .ok bytes) :
    ∃ symbols pads, lastGroup offset 0 input = .ok (symbols, pads) ∧ bytes = groupBytes symbols := by
  unfold lastBytes at hok
  obtain ⟨⟨symbols, pads⟩, hgroup, hok⟩ := bind_eq_ok hok
  refine ⟨symbols, pads, hgroup, ?_⟩
  -- Neither kind of padding plays a part in what the symbols stand for.
  cases p <;>
    · dsimp only at hok
      split at hok
      · exact nomatch hok
      · split at hok
        · exact nomatch hok
        · split at hok
          · exact nomatch hok
          · exact (Except.ok.inj hok).symm

/-- Whatever padding stands behind symbols, they stand for the same bytes if for any. -/
theorem lastBytes_of_ok (h : ∀ v ∈ values, v < 64) {p : Padding} {offset pads : Nat}
    {bytes : List UInt8}
    (hok : lastBytes p offset (values.map symbolByte ++ List.replicate pads pad) = .ok bytes) :
    bytes = groupBytes values := by
  obtain ⟨symbols, count, hgroup, rfl⟩ := exists_lastGroup hok
  rw [lastGroup_symbols h] at hgroup
  split at hgroup
  · exact nomatch hgroup
  · obtain ⟨rfl, -⟩ := Prod.mk.inj (Except.ok.inj hgroup)
    rfl

theorem lastBytes_unpadded (h : ∀ v ∈ values, v < 64) (offset : Nat) (hlength : values.length ≠ 1)
    (hrest : restBits values = 0) :
    lastBytes .none offset (values.map symbolByte) = .ok (groupBytes values) := by
  have hgroup : lastGroup offset 0 (values.map symbolByte) = .ok (values, 0) := by
    have hsymbols := lastGroup_symbols h offset 0 0
    simpa using hsymbols
  have hlong : ¬(values.length < 2 ∧ ¬(values.map symbolByte).isEmpty) := by
    rintro ⟨hlt, hsome⟩
    rw [List.isEmpty_iff, List.map_eq_nil_iff, ← List.length_eq_zero_iff] at hsome
    omega
  unfold lastBytes
  rw [hgroup]
  dsimp only [bind, Except.bind]
  rw [if_neg hlong, if_neg (by simp), if_neg (not_not.mpr hrest)]
  rfl

/-! ### Whole texts -/

/-- No byte is stray among symbols. -/
theorem strayByte?_symbols (h : ∀ v ∈ values, v < 64) :
    strayByte? (values.map symbolByte) = .none := by
  unfold strayByte?
  split
  · rename_i b before hreverse
    have hb : b ∈ values.map symbolByte := by
      rw [← List.mem_reverse, hreverse]
      exact List.mem_cons_self
    obtain ⟨v, hv, rfl⟩ := List.mem_map.mp hb
    have hvalue : value? (symbolByte v) = some v := (symbol_spec v (h v hv)).1
    rw [hvalue]
    exact if_neg fun hstray => by simp at hstray
  · rfl

/-- The place where the last group begins is where the groups have it. -/
theorem Grouped.split {whole last : List Nat} (h : Grouped whole last) :
    ((whole ++ last).length - 1) / 4 * 4 = whole.length := by
  obtain ⟨k, hk⟩ := h.dvd_length
  have hle := h.length_le
  have hnil : last.length = 0 → whole.length = 0 := by
    simpa using h.eq_nil
  rw [List.length_append]
  omega

/-- **Symbols in groups are read without any padding.** -/
theorem decode_unpadded (h : ∀ v ∈ values, v < 64) {whole last : List Nat}
    (hvalues : values = whole ++ last) (hgrouped : Grouped whole last) :
    decode .none (values.map symbolByte) = .ok (bytesOf values) := by
  subst hvalues
  obtain ⟨hwhole, hlast⟩ := List.forall_mem_append.mp h
  unfold decode
  rw [strayByte?_symbols h]
  dsimp only
  rw [List.length_map, hgrouped.split, ← List.map_take, ← List.map_drop, List.take_left,
    List.drop_left, symbolsAt_symbols hwhole,
    lastBytes_unpadded hlast _ hgrouped.length_ne hgrouped.restBits_eq,
    ← wholeGroups_append_groupBytes whole last hgrouped.dvd_length hgrouped.length_le]
  rfl

/-- **With any padding symbols are read as what they stand for, or not at all.** -/
theorem decode_of_ok (h : ∀ v ∈ values, v < 64) {p : Padding} {pads : Nat} {bytes : List UInt8}
    (hok : decode p (values.map symbolByte ++ List.replicate pads pad) = .ok bytes) :
    bytes = bytesOf values := by
  unfold decode at hok
  cases hstray : strayByte? (values.map symbolByte ++ List.replicate pads pad) with
  | some e =>
      rw [hstray] at hok
      exact nomatch hok
  | none =>
      rw [hstray] at hok
      dsimp only at hok
      obtain ⟨symbols, hsymbols, hok⟩ := bind_eq_ok hok
      obtain ⟨rest, hrest, hok⟩ := bind_eq_ok hok
      obtain rfl := Except.ok.inj hok
      have hlength : (values.map symbolByte ++ List.replicate pads pad).length
          = values.length + pads := by simp
      rw [hlength] at hsymbols hrest
      generalize hplace : (values.length + pads - 1) / 4 * 4 = place at hsymbols hrest
      have hle : place ≤ values.length := by
        by_contra hlt
        refine pad_not_mem_of_symbolsAt hsymbols ?_
        rw [List.mem_take_iff_getElem]
        exact ⟨values.length, by simp; omega, by simp⟩
      have hplaced : place ≤ (values.map symbolByte).length := by simpa using hle
      rw [List.take_append_of_le_length hplaced, ← List.map_take] at hsymbols
      rw [List.drop_append_of_le_length hplaced, ← List.map_drop] at hrest
      have hwhole : ∀ v ∈ values.take place, v < 64 := fun v hv => h v (List.mem_of_mem_take hv)
      have hlast : ∀ v ∈ values.drop place, v < 64 := fun v hv => h v (List.mem_of_mem_drop hv)
      rw [symbolsAt_symbols hwhole] at hsymbols
      obtain rfl := Except.ok.inj hsymbols
      obtain rfl := lastBytes_of_ok hlast hrest
      have hdvd : 4 ∣ (values.take place).length := by
        rw [List.length_take]
        omega
      have hfour : (values.drop place).length ≤ 4 := by
        rw [List.length_drop]
        omega
      rw [wholeGroups_append_groupBytes _ _ hdvd hfour, List.take_append_drop]

/-! ### The bytes of a text -/

theorem toList_loop (bytes : ByteArray) (i : Nat) (taken : List UInt8) :
    ByteArray.toList.loop bytes i taken = taken.reverse ++ bytes.data.toList.drop i := by
  induction i, taken using ByteArray.toList.loop.induct bytes with
  | case1 i taken h ih =>
      rw [ByteArray.toList.loop, if_pos h, ih, List.reverse_cons, List.append_assoc,
        List.drop_eq_getElem_cons (show i < bytes.data.toList.length from h)]
      show _ ++ bytes.data[i]! :: List.drop (i + 1) bytes.data.toList = _
      rw [getElem!_pos bytes.data i h, Array.getElem_toList]
  | case2 i taken h =>
      have hdrop : bytes.data.toList.drop i = [] := List.drop_eq_nil_of_le (Nat.le_of_not_lt h)
      rw [ByteArray.toList.loop, if_neg h, hdrop, List.append_nil]

/-- In ASCII every character is one byte. -/
theorem toList_toUTF8 {s : String} (h : ∀ c ∈ s.toList, c.val ≤ 127) :
    s.toUTF8.toList = s.toList.map byte := by
  have hbytes : s.toUTF8.toList = s.toList.flatMap String.utf8EncodeChar := by
    rw [String.toUTF8_eq_toByteArray, ← String.utf8Encode_toList, ByteArray.toList, toList_loop]
    exact List.toList_data_toByteArray
  rw [hbytes, List.map_eq_flatMap]
  refine List.flatMap_congr fun c hc => String.utf8EncodeChar_eq_singleton ?_
  exact Char.utf8Size_eq_one_iff.mpr (h c hc)

theorem rdropWhile_append_replicate {α : Type} [BEq α] [LawfulBEq α] {l : List α} {a : α}
    (h : a ∉ l) (n : Nat) : (l ++ List.replicate n a).rdropWhile (· == a) = l := by
  induction n with
  | zero =>
      rw [List.replicate_zero, List.append_nil, List.rdropWhile_eq_self_iff]
      intro hne hlast
      exact h (eq_of_beq hlast ▸ List.getLast_mem hne)
  | succ n ih =>
      rw [List.replicate_succ', ← List.append_assoc, List.rdropWhile_concat_pos _ _ _ (by simp), ih]

/-! ### Texts on their way -/

theorem blanks_spec : ∀ c ∈ blanks, isBlank (byte c) = true ∧ c.val ≤ 127 := by
  intro c hc
  simp only [blanks, List.mem_cons, List.not_mem_nil, or_false] at hc
  rcases hc with rfl | rfl | rfl | rfl | rfl <;> exact ⟨rfl, by decide⟩

theorem ascii_interspersed {text spread : List Char} (h : Interspersed text spread)
    (htext : ∀ c ∈ text, c.val ≤ 127) : ∀ c ∈ spread, c.val ≤ 127 := by
  induction h with
  | nil => simp
  | keep c rest ih =>
      obtain ⟨hc, htext⟩ := List.forall_mem_cons.mp htext
      exact List.forall_mem_cons.mpr ⟨hc, ih htext⟩
  | blank hc rest ih => exact List.forall_mem_cons.mpr ⟨(blanks_spec _ hc).2, ih htext⟩

/-- Blanks are dropped wherever they stand. -/
theorem filter_interspersed {text spread : List Char} (h : Interspersed text spread)
    (htext : ∀ c ∈ text, isBlank (byte c) = false) :
    (spread.map byte).filter (fun b => !isBlank b) = text.map byte := by
  induction h with
  | nil => rfl
  | keep c rest ih =>
      obtain ⟨hc, htext⟩ := List.forall_mem_cons.mp htext
      rw [List.map_cons, List.map_cons, List.filter_cons_of_pos (by simp [hc]), ih htext]
  | blank hc rest ih =>
      have hblank := (blanks_spec _ hc).1
      rw [List.map_cons, List.filter_cons_of_neg (by simp [hblank]), ih htext]

theorem unpadded_eq (bytes : List UInt8) :
    (encode bytes).rdropWhile (· == '=') = (sextets bytes).map symbol := by
  refine rdropWhile_append_replicate (fun hmem => ?_) _
  obtain ⟨v, hv, hsymbol⟩ := List.mem_map.mp hmem
  exact (symbol_spec v (sextets_lt bytes v hv)).2.1 hsymbol

example : encode [0x66, 0x6F, 0x6F, 0x62] = ['Z', 'm', '9', 'v', 'Y', 'g', '=', '='] := by
  decide

/-- What is read of a payload without its blanks. -/
theorem compact_payload {bytes : List UInt8} {payload : String} (h : Payload bytes payload) :
    ∃ n, payload.toUTF8.toList.filter (fun b => !isBlank b)
      = (sextets bytes).map symbolByte ++ List.replicate n pad := by
  obtain ⟨n, hspread⟩ := h
  rw [unpadded_eq] at hspread
  have hclean : ∀ c ∈ (sextets bytes).map symbol ++ List.replicate n '=',
      isBlank (byte c) = false ∧ c.val ≤ 127 := by
    intro c hc
    rcases List.mem_append.mp hc with hc | hc
    · obtain ⟨v, hv, rfl⟩ := List.mem_map.mp hc
      exact (symbol_spec v (sextets_lt bytes v hv)).2.2
    · obtain rfl := List.eq_of_mem_replicate hc
      decide
  refine ⟨n, ?_⟩
  rw [toList_toUTF8 (ascii_interspersed hspread fun c hc => (hclean c hc).2),
    filter_interspersed hspread fun c hc => (hclean c hc).1, List.map_append, List.map_map,
    List.map_replicate]
  rfl

theorem stripPadding_symbols {values : List Nat} (h : ∀ v ∈ values, v < 64) (n : Nat) :
    stripPadding (values.map symbolByte ++ List.replicate n pad) = values.map symbolByte := by
  refine rdropWhile_append_replicate (fun hmem => ?_) n
  obtain ⟨v, hv, hpad⟩ := List.mem_map.mp hmem
  exact symbolByte_ne_pad (h v hv) hpad

/-- **A payload is read as the bytes that were written, whatever became of it on its way.** -/
theorem decodeLoosely_of_payload {bytes : List UInt8} {payload : String}
    (h : Payload bytes payload) : decodeLoosely payload = .ok bytes := by
  obtain ⟨n, hcompact⟩ := compact_payload h
  have hlt := sextets_lt bytes
  obtain ⟨whole, last, hvalues, hgrouped⟩ := exists_grouped bytes
  unfold decodeLoosely
  rw [hcompact]
  dsimp only
  split
  · rename_i found hfound
    -- The strict reading accepts it, and can only have found the same.
    rw [decode_of_ok hlt hfound, bytesOf_sextets]
  · rw [stripPadding_symbols hlt, decode_unpadded hlt hvalues hgrouped, bytesOf_sextets]

end Receipt.Base64
