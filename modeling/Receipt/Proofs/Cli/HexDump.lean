/-
A dump can be read back.

A reader needs two columns of a row.  The offset is digits up to a space, however many of them
there are, so it can be skipped without counting.  The digits of the bytes stand in a column of
47 characters: the byte with the number `k` in the row has the places `3 * k` and `3 * k + 1`,
and wherever there is no byte there are spaces.  So a group of two places is a byte or blank, and
a short row ends with its last byte.

The characters of the bytes come behind that and are never looked at.  All that they must not do
is end the row.  So `read` gives the bytes back of any table that is laid out for them, whatever
its characters say, and a dump is such a table.
-/
import Mathlib.Algebra.Group.Nat.Defs
import Mathlib.Data.List.Forall2
import Mathlib.Data.List.Induction
import Mathlib.Data.List.TakeDrop
import Mathlib.Data.List.TakeWhile
import Receipt.Cli.HexDump

namespace Receipt.HexDump

/-! ### Numbers to the base sixteen -/

/-- The digits in the order of what they stand for. -/
def alphabet : List Char :=
  ['0', '1', '2', '3', '4', '5', '6', '7', '8', '9', 'A', 'B', 'C', 'D', 'E', 'F']

def value? (c : Char) : Option Nat :=
  alphabet.idxOf? c

/-- The number that digits stand for, the highest one first. -/
def number? (cs : List Char) : Option Nat :=
  cs.foldlM (fun n c => (value? c).map (16 * n + ·)) 0

theorem value?_digit : ∀ n < 16, value? (digit n) = some n := by
  decide

theorem value?_digitChar : ∀ n < 16, value? n.digitChar.toUpper = some n := by
  decide

theorem mem_alphabet {c : Char} {n : Nat} (h : value? c = some n) : c ∈ alphabet := by
  obtain ⟨hlt, rfl, -⟩ := List.idxOf?_eq_some_iff.mp h
  exact List.getElem_mem hlt

theorem space_not_mem_alphabet : ' ' ∉ alphabet := by
  decide

theorem newline_not_mem_alphabet : '\n' ∉ alphabet := by
  decide

theorem number?_concat (cs : List Char) (c : Char) :
    number? (cs ++ [c]) = (number? cs).bind fun n => (value? c).map (16 * n + ·) := by
  unfold number?
  rw [List.foldlM_append]
  simp [bind]

/-- Zeros before a number do not change it. -/
theorem number?_replicate_append (k : Nat) (cs : List Char) :
    number? (List.replicate k '0' ++ cs) = number? cs := by
  induction k with
  | zero => rfl
  | succ k ih => exact ih

/-- Only digits are a number. -/
theorem subset_alphabet_of_number? {cs : List Char} {n : Nat} (h : number? cs = some n) :
    cs ⊆ alphabet := by
  induction cs using List.reverseRecOn generalizing n with
  | nil => exact List.nil_subset _
  | append_singleton cs c ih =>
      rw [number?_concat] at h
      obtain ⟨m, hm, h⟩ := Option.bind_eq_some_iff.mp h
      obtain ⟨v, hv, -⟩ := Option.map_eq_some_iff.mp h
      exact List.append_subset.mpr ⟨ih hm, by simpa using mem_alphabet hv⟩

theorem number?_toDigits (n : Nat) :
    number? ((Nat.toDigits 16 n).map Char.toUpper) = some n := by
  induction n using Nat.strong_induction_on with
  | _ n ih =>
      rw [Nat.toDigits_eq_if (by decide)]
      split
      · rename_i hlt
        have hvalue := value?_digitChar n hlt
        simp [number?, hvalue]
      · rw [List.map_append, List.map_singleton, number?_concat, ih (n / 16) (by omega),
          value?_digitChar (n % 16) (by omega)]
        exact congrArg some (Nat.div_add_mod n 16)

theorem number?_offsetDigits (n : Nat) : number? (offsetDigits n) = some n := by
  unfold offsetDigits
  rw [number?_replicate_append, number?_toDigits]

theorem length_offsetDigits (n : Nat) :
    (offsetDigits n).length = max 8 (Nat.toDigits 16 n).length := by
  simp only [offsetDigits, List.length_append, List.length_replicate, List.length_map]
  omega

/-! ### Rows -/

/-- A row in its three columns: the offset, the digits and the characters of its bytes. -/
structure Row where
  offset : List Char
  digits : List Char
  shown : List Char

/-- A row as it is written, with two spaces between columns. -/
def Row.chars (r : Row) : List Char :=
  r.offset ++ [' ', ' '] ++ r.digits ++ [' ', ' '] ++ r.shown

/-- Rows as they are written, with a newline behind each. -/
def written (rows : List Row) : String :=
  String.ofList (rows.flatMap fun r => r.chars ++ ['\n'])

/-- The byte of the group of two digits with a number, if there is one. -/
def byteAt? (digits : List Char) (k : Nat) : Option UInt8 := do
  let high ← value? (← digits[3 * k]?)
  let low ← value? (← digits[3 * k + 1]?)
  return (16 * high + low).toUInt8

/-- A row is laid out for bytes from an offset on: what it takes for a reader to find them. -/
structure Row.LaidOut (r : Row) (start : Nat) (bytes : List UInt8) : Prop where
  offset_eq : number? r.offset = some start
  /-- As many digits as it takes, at least eight. -/
  offset_length : 8 ≤ r.offset.length ∧ ∀ k, 8 ≤ k → (r.offset.length ≤ k ↔ start < 16 ^ k)
  digits_length : r.digits.length = 47
  /-- The groups are the bytes in order, and there is no group behind the last of them. -/
  byte_eq : ∀ k < 16, byteAt? r.digits k = bytes[k]?
  /-- Spaces stand between the groups and behind the last one. -/
  blank : ∀ j < 47, j % 3 = 2 ∨ 3 * bytes.length ≤ j → r.digits[j]? = some ' '

/-- What may show a byte: printable ASCII, the byte itself if it is that. -/
structure ShownAs (b : UInt8) (c : Char) : Prop where
  printable : 0x20 ≤ c.toNat ∧ c.toNat ≤ 0x7E
  itself : 0x20 ≤ b.toNat ∧ b.toNat ≤ 0x7E → c.toNat = b.toNat
  point : ¬(0x20 ≤ b.toNat ∧ b.toNat ≤ 0x7E) → c = '.'

/-- The characters show bytes one by one. -/
def Row.Shows (r : Row) (bytes : List UInt8) : Prop :=
  List.Forall₂ ShownAs bytes r.shown

/-- The bytes of the row with a number. -/
def chunk (bytes : List UInt8) (i : Nat) : List UInt8 :=
  (bytes.drop (16 * i)).take 16

/-- Rows are laid out for bytes, sixteen in a row but the last one. -/
structure Table (bytes : List UInt8) (rows : List Row) : Prop where
  length_eq : rows.length = (bytes.length + 15) / 16
  laidOut : ∀ i (h : i < rows.length), rows[i].LaidOut (16 * i) (chunk bytes i)

theorem length_chunk_le (bytes : List UInt8) (i : Nat) : (chunk bytes i).length ≤ 16 :=
  List.length_take_le _ _

/-- **Chunks are the bytes they were cut from.** -/
theorem flatMap_chunk (bytes : List UInt8) (n : Nat) :
    (List.range n).flatMap (chunk bytes) = bytes.take (16 * n) := by
  induction n with
  | zero => rfl
  | succ n ih =>
      rw [List.range_succ, List.flatMap_append, ih, List.flatMap_singleton, Nat.mul_succ,
        List.take_add]
      rfl

/-! ### Reading -/

/-- The bytes of a column of digits. -/
def readDigits (digits : List Char) : List UInt8 :=
  (List.range 16).filterMap (byteAt? digits)

/-- The bytes of a row: the offset is skipped up to the first space, and the column of digits
comes two spaces further. -/
def readRow (cs : List Char) : List UInt8 :=
  readDigits (((cs.dropWhile (· != ' ')).drop 2).take 47)

/-- The bytes of a text, row by row. -/
def read (text : String) : List UInt8 :=
  (text.toList.splitOn '\n').flatMap readRow

theorem filterMap_getElem?_range {α : Type} (l : List α) (n : Nat) :
    (List.range n).filterMap (l[·]?) = l.take n := by
  induction n with
  | zero => rfl
  | succ n ih =>
      rw [List.range_succ, List.filterMap_append, ih, List.take_add_one]
      cases h : l[n]? <;> simp [h]

/-- Both places of a group that is a byte hold digits. -/
theorem mem_alphabet_of_byteAt? {digits : List Char} {k : Nat} {b : UInt8}
    (h : byteAt? digits k = some b) :
    (∀ c, digits[3 * k]? = some c → c ∈ alphabet) ∧
      ∀ c, digits[3 * k + 1]? = some c → c ∈ alphabet := by
  obtain ⟨c₀, hfirst, h⟩ := Option.bind_eq_some_iff.mp h
  obtain ⟨high, hhigh, h⟩ := Option.bind_eq_some_iff.mp h
  obtain ⟨c₁, hsecond, h⟩ := Option.bind_eq_some_iff.mp h
  obtain ⟨low, hlow, -⟩ := Option.bind_eq_some_iff.mp h
  refine ⟨fun c hc => ?_, fun c hc => ?_⟩
  · obtain rfl := Option.some.inj (hfirst.symm.trans hc)
    exact mem_alphabet hhigh
  · obtain rfl := Option.some.inj (hsecond.symm.trans hc)
    exact mem_alphabet hlow

namespace Row.LaidOut

variable {r : Row} {start : Nat} {bytes : List UInt8} (h : r.LaidOut start bytes)

include h

theorem readDigits_eq (hlength : bytes.length ≤ 16) : readDigits r.digits = bytes := by
  have hgroups : (List.range 16).filterMap (byteAt? r.digits)
      = (List.range 16).filterMap (bytes[·]?) :=
    List.filterMap_congr fun k hk => h.byte_eq k (List.mem_range.mp hk)
  unfold readDigits
  rw [hgroups, filterMap_getElem?_range, List.take_of_length_le hlength]

/-- **A row is read as its bytes**, whatever its characters are. -/
theorem readRow_chars (hlength : bytes.length ≤ 16) : readRow r.chars = bytes := by
  have hskipped : ∀ c ∈ r.offset, (c != ' ') = true := by
    intro c hc
    rw [bne_iff_ne]
    rintro rfl
    exact space_not_mem_alphabet (subset_alphabet_of_number? h.offset_eq hc)
  have hdropped : r.chars.dropWhile (· != ' ')
      = ' ' :: ' ' :: (r.digits ++ ([' ', ' '] ++ r.shown)) := by
    unfold Row.chars
    simp only [List.append_assoc]
    rw [List.dropWhile_append_of_pos hskipped]
    rfl
  have htaken : ((r.chars.dropWhile (· != ' ')).drop 2).take 47 = r.digits := by
    rw [hdropped]
    exact List.take_left' h.digits_length
  unfold readRow
  rw [htaken, h.readDigits_eq hlength]

/-- A place in the column of digits holds a digit or a space. -/
theorem mem_digits {c : Char} (hc : c ∈ r.digits) : c = ' ' ∨ c ∈ alphabet := by
  obtain ⟨j, hj, hget⟩ := List.mem_iff_getElem.mp hc
  have hplace : r.digits[j]? = some c := List.getElem?_eq_some_iff.mpr ⟨hj, hget⟩
  rw [h.digits_length] at hj
  by_cases hblank : j % 3 = 2 ∨ 3 * bytes.length ≤ j
  · exact Or.inl (Option.some.inj (hplace.symm.trans (h.blank j hj hblank)))
  · -- The place is one of the two of a group, and the group is a byte.
    have hbyte : byteAt? r.digits (j / 3) = some bytes[j / 3] := by
      rw [h.byte_eq (j / 3) (by omega), List.getElem?_eq_getElem]
    obtain ⟨hfirst, hsecond⟩ := mem_alphabet_of_byteAt? hbyte
    have hwhich : j = 3 * (j / 3) ∨ j = 3 * (j / 3) + 1 := by omega
    rcases hwhich with hj | hj
    · exact Or.inr (hfirst c (hj ▸ hplace))
    · exact Or.inr (hsecond c (hj ▸ hplace))

/-- A row without a newline among its characters is a row without a newline. -/
theorem newline_not_mem_chars (hshown : '\n' ∉ r.shown) :
    '\n' ∉ r.chars := by
  intro hmem
  simp only [Row.chars, List.mem_append] at hmem
  rcases hmem with (((hoffset | hspaces) | hdigits) | hspaces) | hmem
  · exact newline_not_mem_alphabet (subset_alphabet_of_number? h.offset_eq hoffset)
  · exact absurd hspaces (by decide)
  · rcases h.mem_digits hdigits with hspace | hdigit
    · exact absurd hspace (by decide)
    · exact newline_not_mem_alphabet hdigit
  · exact absurd hspaces (by decide)
  · exact hshown hmem

end Row.LaidOut

/-- Rows are read one by one. -/
theorem read_written {rows : List Row} (h : ∀ r ∈ rows, '\n' ∉ r.chars) :
    read (written rows) = rows.flatMap fun r => readRow r.chars := by
  unfold read written
  rw [String.toList_ofList]
  induction rows with
  | nil => rfl
  | cons r rows ih =>
      obtain ⟨hr, hrows⟩ := List.forall_mem_cons.mp h
      rw [List.flatMap_cons, List.append_assoc, List.singleton_append,
        List.splitOn_append_cons_self_of_not_mem hr, List.flatMap_cons, List.flatMap_cons, ih hrows]

/-- **A table is read as the bytes it is laid out for.** -/
theorem Table.read_eq {bytes : List UInt8} {rows : List Row} (h : Table bytes rows)
    (hshown : ∀ r ∈ rows, '\n' ∉ r.shown) : read (written rows) = bytes := by
  have hclean : ∀ r ∈ rows, '\n' ∉ r.chars := by
    intro r hr
    obtain ⟨i, hi, rfl⟩ := List.mem_iff_getElem.mp hr
    exact (h.laidOut i hi).newline_not_mem_chars (hshown _ hr)
  have hchunks : rows.map (fun r => readRow r.chars)
      = (List.range rows.length).map (chunk bytes) := by
    refine List.ext_getElem (by simp) fun i hi _ => ?_
    rw [List.length_map] at hi
    rw [List.getElem_map, List.getElem_map, List.getElem_range]
    exact (h.laidOut i hi).readRow_chars (length_chunk_le bytes i)
  rw [read_written hclean, List.flatMap_def, hchunks, ← List.flatMap_def, flatMap_chunk,
    List.take_of_length_le]
  rw [h.length_eq]
  omega

/-! ### The rows of a dump -/

/-- The row that is written for bytes from an offset on. -/
def rowOf (start : Nat) (bytes : List UInt8) : Row :=
  ⟨offsetDigits start, digitColumn bytes, bytes.map byteChar⟩

/-- **A dump is its rows**, one for each chunk. -/
theorem lines_eq {fuel start : Nat} {bytes : List UInt8} (hfuel : bytes.length ≤ fuel) :
    lines fuel start bytes
      = ((List.range ((bytes.length + 15) / 16)).map fun i =>
          rowOf (start + 16 * i) (chunk bytes i)).flatMap fun r => r.chars ++ ['\n'] := by
  -- On the fuel.  A row takes one of it and at least one byte, so what is left is enough.
  induction fuel generalizing start bytes with
  | zero =>
      obtain rfl := List.length_eq_zero_iff.mp (Nat.le_zero.mp hfuel)
      rfl
  | succ fuel ih =>
      cases bytes with
      | nil => rfl
      | cons b rest =>
          have hrows : ((b :: rest).length + 15) / 16
              = (((b :: rest).drop 16).length + 15) / 16 + 1 := by
            rw [List.length_drop, List.length_cons]
            omega
          have hrest : ((b :: rest).drop 16).length ≤ fuel := by
            rw [List.length_drop]
            omega
          have hlater (i : Nat) : rowOf (start + 16 + 16 * i) (chunk ((b :: rest).drop 16) i)
              = rowOf (start + 16 * (i + 1)) (chunk (b :: rest) (i + 1)) := by
            unfold chunk
            rw [List.drop_drop, Nat.mul_succ, Nat.add_comm (16 * i) 16, Nat.add_assoc]
          rw [lines, if_neg (by simp), ih hrest, hrows, List.range_succ_eq_map, List.map_cons,
            List.flatMap_cons, List.map_map]
          simp only [hlater]
          rfl

theorem dump_eq_written (bytes : List UInt8) :
    dump bytes = written ((List.range ((bytes.length + 15) / 16)).map fun i =>
      rowOf (16 * i) (chunk bytes i)) := by
  unfold dump written
  rw [lines_eq (Nat.le_refl _)]
  simp only [Nat.zero_add]

/-! ### The column of digits -/

theorem intercalate_append_space {bytes : List UInt8} (h : bytes ≠ []) :
    List.intercalate [' '] (bytes.map byteDigits) ++ [' ']
      = bytes.flatMap fun b => byteDigits b ++ [' '] := by
  induction bytes with
  | nil => exact absurd rfl h
  | cons b rest ih =>
      cases rest with
      | nil => rfl
      | cons b' rest =>
          rw [List.flatMap_cons, ← ih (by simp), List.map_cons, List.map_cons,
            List.intercalate_cons_cons, List.append_assoc]

theorem length_flatMap_byteDigits (bytes : List UInt8) :
    (bytes.flatMap fun b => byteDigits b ++ [' ']).length = 3 * bytes.length := by
  induction bytes with
  | nil => rfl
  | cons b rest ih =>
      rw [List.flatMap_cons, List.length_append, ih, List.length_cons, Nat.mul_succ, Nat.add_comm]
      rfl

/-- With one space more behind it the column is three places for each byte, and spaces. -/
theorem digitColumn_append_space {bytes : List UInt8} (hlength : bytes.length ≤ 16) :
    digitColumn bytes ++ [' ']
      = bytes.flatMap (fun b => byteDigits b ++ [' '])
        ++ List.replicate (48 - 3 * bytes.length) ' ' := by
  rcases eq_or_ne bytes [] with rfl | hsome
  · rfl
  · have hdigits := intercalate_append_space hsome
    have hcount := congrArg List.length hdigits
    rw [length_flatMap_byteDigits, List.length_append, List.length_singleton] at hcount
    have hspaces : 48 - 3 * bytes.length
        = 47 - (List.intercalate [' '] (bytes.map byteDigits)).length := by omega
    unfold digitColumn
    rw [← hdigits, hspaces, List.append_assoc, List.append_assoc, List.singleton_append,
      ← List.replicate_succ, List.replicate_succ']

theorem length_digitColumn {bytes : List UInt8} (hlength : bytes.length ≤ 16) :
    (digitColumn bytes).length = 47 := by
  have hcount := congrArg List.length (digitColumn_append_space hlength)
  simp only [List.length_append, length_flatMap_byteDigits, List.length_replicate,
    List.length_singleton] at hcount
  omega

theorem getElem?_flatMap_byteDigits (bytes : List UInt8) (k : Nat) {place : Nat}
    (hplace : place < 3) :
    (bytes.flatMap fun b => byteDigits b ++ [' '])[3 * k + place]?
      = bytes[k]?.bind fun b => (byteDigits b ++ [' '])[place]? := by
  induction bytes generalizing k with
  | nil => rfl
  | cons b rest ih =>
      have hthree : (byteDigits b ++ [' ']).length = 3 := rfl
      rw [List.flatMap_cons]
      cases k with
      | zero =>
          rw [List.getElem?_append_left (by omega), Nat.mul_zero, Nat.zero_add]
          rfl
      | succ k =>
          have hbehind : 3 * (k + 1) + place - 3 = 3 * k + place := by omega
          rw [List.getElem?_append_right (by omega), hthree, hbehind, ih]
          rfl

/-- What stands at the three places of a group: two digits and a space, or spaces only. -/
def group : Option UInt8 → List Char
  | some b => byteDigits b ++ [' ']
  | none => List.replicate 3 ' '

/-- **The column of digits has a group for each byte, and is blank behind them.** -/
theorem getElem?_digitColumn {bytes : List UInt8} (hlength : bytes.length ≤ 16) (k : Nat)
    {place : Nat} (hplace : place < 3) (hinside : 3 * k + place < 47) :
    (digitColumn bytes)[3 * k + place]? = (group bytes[k]?)[place]? := by
  have hcolumn : (digitColumn bytes)[3 * k + place]?
      = (digitColumn bytes ++ [' '])[3 * k + place]? :=
    (List.getElem?_append_left (length_digitColumn hlength ▸ hinside)).symm
  have hgroups := length_flatMap_byteDigits bytes
  rw [hcolumn, digitColumn_append_space hlength]
  by_cases hk : k < bytes.length
  · rw [List.getElem?_append_left (by omega), getElem?_flatMap_byteDigits bytes k hplace,
      List.getElem?_eq_getElem hk]
    rfl
  · have hspace : (group none)[place]? = some ' ' := List.getElem?_replicate_of_lt hplace
    rw [List.getElem?_append_right (by omega), List.getElem?_replicate_of_lt (by omega),
      List.getElem?_eq_none (Nat.le_of_not_lt hk), hspace]

theorem byteAt?_digitColumn {bytes : List UInt8} (hlength : bytes.length ≤ 16) {k : Nat}
    (hk : k < 16) : byteAt? (digitColumn bytes) k = bytes[k]? := by
  have hfirst : (digitColumn bytes)[3 * k]? = (group bytes[k]?)[0]? :=
    getElem?_digitColumn hlength k (Nat.zero_lt_succ 2) (by omega)
  have hsecond : (digitColumn bytes)[3 * k + 1]? = (group bytes[k]?)[1]? :=
    getElem?_digitColumn hlength k (Nat.one_lt_succ_succ 1) (by omega)
  unfold byteAt?
  rw [hfirst, hsecond]
  cases bytes[k]? with
  | none => rfl
  | some b =>
      have hb := b.toNat_lt
      have hhigh : value? (digit (b.toNat / 16)) = some (b.toNat / 16) :=
        value?_digit _ (by omega)
      have hlow : value? (digit (b.toNat % 16)) = some (b.toNat % 16) :=
        value?_digit _ (by omega)
      have hbyte : (16 * (b.toNat / 16) + b.toNat % 16).toUInt8 = b := by
        rw [Nat.div_add_mod]
        exact UInt8.ofNat_toNat
      change ((value? (digit (b.toNat / 16))).bind fun high =>
        (value? (digit (b.toNat % 16))).bind fun low => some (16 * high + low).toUInt8) = some b
      rw [hhigh, hlow]
      exact congrArg some hbyte

/-! ### Dumps -/

theorem rowOf_laidOut (start : Nat) {bytes : List UInt8} (hlength : bytes.length ≤ 16) :
    (rowOf start bytes).LaidOut start bytes where
  offset_eq := number?_offsetDigits start
  offset_length := by
    refine ⟨by rw [rowOf, length_offsetDigits]; omega, fun k hk => ?_⟩
    have hdigits : (Nat.toDigits 16 start).length ≤ k ↔ start < 16 ^ k :=
      Nat.length_toDigits_le_iff (by decide) (by omega)
    rw [rowOf, length_offsetDigits, ← hdigits]
    omega
  digits_length := length_digitColumn hlength
  byte_eq k hk := byteAt?_digitColumn hlength hk
  blank j hj hblank := by
    have hplace : j % 3 < 3 := Nat.mod_lt j (by decide)
    have hget := getElem?_digitColumn hlength (j / 3) hplace (by omega)
    rw [Nat.div_add_mod] at hget
    rw [rowOf, hget]
    rcases hblank with hbetween | hbehind
    · rw [hbetween]
      cases bytes[j / 3]? <;> rfl
    · have hnone : bytes[j / 3]? = none := List.getElem?_eq_none (by omega)
      rw [hnone]
      exact List.getElem?_replicate_of_lt hplace

theorem byteChar_shownAs (b : UInt8) : ShownAs b (byteChar b) := by
  unfold byteChar
  split
  · rename_i hprintable
    have hchar : (Char.ofNat b.toNat).toNat = b.toNat := by
      unfold Char.ofNat
      rw [dif_pos (Or.inl (by omega))]
      rfl
    exact ⟨by rwa [hchar], fun _ => hchar, fun hnot => absurd hprintable hnot⟩
  · rename_i hnot
    exact ⟨by decide, fun hprintable => absurd hprintable hnot, fun _ => rfl⟩

theorem rowOf_shows (start : Nat) (bytes : List UInt8) : (rowOf start bytes).Shows bytes :=
  List.forall₂_map_right_iff.mpr (List.forall₂_same.mpr fun b _ => byteChar_shownAs b)

/-- No byte is shown by a newline. -/
theorem newline_not_mem_of_shownAs {bytes : List UInt8} {cs : List Char}
    (h : List.Forall₂ ShownAs bytes cs) : '\n' ∉ cs := by
  induction h with
  | nil => exact List.not_mem_nil
  | cons hc _ ih =>
      rw [List.mem_cons]
      rintro (rfl | hmem)
      · exact absurd hc.printable (by decide)
      · exact ih hmem

/-- The rows of a dump are a table, and show their bytes. -/
theorem exists_table (bytes : List UInt8) :
    ∃ rows, dump bytes = written rows ∧ Table bytes rows ∧
      ∀ i (h : i < rows.length), rows[i].Shows (chunk bytes i) := by
  refine ⟨_, dump_eq_written bytes, ⟨by simp, fun i hi => ?_⟩, fun i hi => ?_⟩
  · rw [List.getElem_map, List.getElem_range]
    exact rowOf_laidOut (16 * i) (length_chunk_le bytes i)
  · rw [List.getElem_map, List.getElem_range]
    exact rowOf_shows (16 * i) (chunk bytes i)

theorem read_dump (bytes : List UInt8) : read (dump bytes) = bytes := by
  obtain ⟨rows, hdump, htable, hshows⟩ := exists_table bytes
  rw [hdump]
  refine htable.read_eq fun r hr => ?_
  obtain ⟨i, hi, rfl⟩ := List.mem_iff_getElem.mp hr
  exact newline_not_mem_of_shownAs (hshows i hi)

/-- **A dump determines its bytes.**  It is a row for every sixteen bytes, with their offset,
their digits in a column of fixed width, and a printable character for each.  Whatever characters
are put in the place of these, a reader of the digits gets the bytes back, and so no two dumps
look alike. -/
theorem dump_determines_bytes (bytes : List UInt8) :
    (∃ rows, dump bytes = written rows ∧ Table bytes rows ∧
      ∀ i (h : i < rows.length), rows[i].Shows (chunk bytes i)) ∧
    (∀ rows, Table bytes rows → (∀ r ∈ rows, '\n' ∉ r.shown) → read (written rows) = bytes) ∧
    read (dump bytes) = bytes ∧
    ∀ other, dump other = dump bytes → other = bytes := by
  refine ⟨exists_table bytes, fun rows htable hshown => htable.read_eq hshown, read_dump bytes,
    fun other hsame => ?_⟩
  calc other = read (dump other) := (read_dump other).symm
    _ = read (dump bytes) := congrArg read hsame
    _ = bytes := read_dump bytes

/-- A row of two bytes, with characters that look like the digits of two others. -/
def disguised : Row :=
  ⟨"00000000".toList, "0D 0A".toList ++ List.replicate 42 ' ', "41 42".toList⟩

theorem dump_determines_bytes_disguised :
    Table [0x0D, 0x0A] [disguised] ∧ (∀ r ∈ [disguised], '\n' ∉ r.shown) ∧
    written [disguised] = "00000000  0D 0A                                            41 42\n" ∧
    read (written [disguised]) = [0x0D, 0x0A] ∧
    dump [0x0D, 0x0A] = "00000000  0D 0A                                            ..\n" := by
  have hrow : disguised.LaidOut 0 [0x0D, 0x0A] :=
    { offset_eq := by decide
      offset_length := ⟨by decide, fun k hk => ⟨fun _ => Nat.pow_pos (by decide), fun _ => hk⟩⟩
      digits_length := by decide
      byte_eq := by decide
      blank := by decide }
  have htable : Table [0x0D, 0x0A] [disguised] := by
    refine ⟨rfl, fun i hi => ?_⟩
    obtain rfl := Nat.lt_one_iff.mp hi
    exact hrow
  have hshown : ∀ r ∈ [disguised], '\n' ∉ r.shown := by
    intro r hr
    obtain rfl := List.mem_singleton.mp hr
    decide
  obtain ⟨-, hread, -⟩ := dump_determines_bytes [0x0D, 0x0A]
  exact ⟨htable, hshown, by decide +kernel, hread [disguised] htable hshown, by decide +kernel⟩

end Receipt.HexDump
