/-
Reading a stream of ESC/POS bytes.

The reader scans from the left.  `ESC` and `GS` start a command whose second byte
says which one and how many bytes belong to it; for a raster that depends on the
row bytes and rows of its header.  Any other byte is text.  A command that is not
in the table, or that the stream ends inside of, cannot be read, so a stream that
can be read is used up exactly.

What is read is finer than what was issued: text arrives byte by byte, long feeds
and high rasters in parts.  `merged` joins neighbours again that are parts of one
thing and drops what has no part at all.  The laws of `join?` are those of addition
and concatenation, which is why it does not matter how a thing was split.
-/
import Receipt.Printer.EscPos

namespace Receipt.EscPos

/-- One thing that a stream tells a printer. -/
inductive Instruction where
  | reset
  | align (a : Alignment)
  | size (s : CharacterSize)
  | bold (on : Bool)
  | codePage (page : CodePage)
  | cut (c : Cut)
  | feed (lines : Nat)
  | raster (rowBytes rows : Nat) (data : List UInt8)
  | text (bytes : List UInt8)
  deriving DecidableEq, Repr

/-! ### The reader -/

def alignmentOf? (n : UInt8) : Option Alignment :=
  if n = 0 then some .left else if n = 1 then some .center else if n = 2 then some .right
  else none

def flagOf? (n : UInt8) : Option Bool :=
  if n = 0 then some false else if n = 1 then some true else none

def pageOf? (n : UInt8) : Option CodePage :=
  if n = 0 then some .cp437 else if n = 2 then some .cp850 else if n = 3 then some .cp860
  else none

/-- The size in one byte: each half holds a magnification less one. -/
def sizeOf (n : UInt8) : CharacterSize :=
  ⟨(n >>> 4) + 1, (n &&& 15) + 1⟩

def cutOf? (n : UInt8) : Option Cut :=
  if n = 0 then some .full else if n = 1 then some .partly else none

/-- The command `ESC c n`. -/
def escInstruction? (c n : UInt8) : Option Instruction :=
  if c = 0x61 then (alignmentOf? n).map .align
  else if c = 0x45 then (flagOf? n).map .bold
  else if c = 0x64 then some (.feed n.toNat)
  else if c = 0x74 then (pageOf? n).map .codePage
  else none

/-- The command `GS c n`. -/
def gsInstruction? (c n : UInt8) : Option Instruction :=
  if c = 0x21 then some (.size (sizeOf n))
  else if c = 0x56 then (cutOf? n).map .cut
  else none

/-- The command `ESC c n` at the front of a stream, without its first two bytes. -/
def readParameter? (command : UInt8 → Option Instruction) :
    List UInt8 → Option (Instruction × List UInt8)
  | n :: rest => (command n).map fun i => (i, rest)
  | [] => none

/-- A number of 16 bits from its bytes, the low one first. -/
def number16 (low high : UInt8) : Nat :=
  low.toNat + 256 * high.toNat

/-- A raster at the front of a stream, without its first two bytes.  As much data
belongs to it as its row bytes and rows make. -/
def readRaster? : List UInt8 → Option (Instruction × List UInt8)
  | m :: z :: xl :: xh :: yl :: yh :: rest =>
    let rowBytes := number16 xl xh
    let rows := number16 yl yh
    if m = 0x30 ∧ z = 0 ∧ rowBytes * rows ≤ rest.length then
      some (.raster rowBytes rows (rest.take (rowBytes * rows)), rest.drop (rowBytes * rows))
    else none
  | _ => none

/-- What stands at the front of a stream, and the rest of the stream. -/
def readOne? : List UInt8 → Option (Instruction × List UInt8)
  | [] => none
  | b :: rest =>
    if b = esc then
      match rest with
      | [] => none
      | c :: rest =>
        if c = 0x40 then some (.reset, rest) else readParameter? (escInstruction? c) rest
    else if b = gs then
      match rest with
      | [] => none
      | c :: rest =>
        if c = 0x76 then readRaster? rest else readParameter? (gsInstruction? c) rest
    else some (.text [b], rest)

/-- A raster is whole if its data is as long as its dimensions ask for. -/
def Instruction.Whole : Instruction → Prop
  | .raster rowBytes rows data => data.length = rowBytes * rows
  | _ => True

/-- What a reader can find: a text of one byte that starts no command, or a raster with all
of its data and in rows of a size that two bytes can tell. -/
def Instruction.Found : Instruction → Prop
  | .text bytes => ∃ b, bytes = [b] ∧ b ≠ esc ∧ b ≠ gs
  | .raster rowBytes rows data => rowBytes ≤ Raster.maxRowBytes ∧ data.length = rowBytes * rows
  | _ => True

theorem Instruction.Found.whole {i : Instruction} (h : i.Found) : i.Whole := by
  cases i with
  | raster rowBytes rows data => exact h.2
  | _ => trivial

theorem number16_le (low high : UInt8) : number16 low high ≤ Raster.maxRowBytes := by
  have hlow := low.toNat_lt
  have hhigh := high.toNat_lt
  unfold number16 Raster.maxRowBytes
  omega

theorem escInstruction?_found {c n : UInt8} {i : Instruction}
    (h : escInstruction? c n = some i) : i.Found := by
  unfold escInstruction? at h
  split at h
  · obtain ⟨a, -, rfl⟩ := Option.map_eq_some_iff.mp h
    trivial
  · split at h
    · obtain ⟨on, -, rfl⟩ := Option.map_eq_some_iff.mp h
      trivial
    · split at h
      · obtain rfl := Option.some.inj h
        trivial
      · split at h
        · obtain ⟨page, -, rfl⟩ := Option.map_eq_some_iff.mp h
          trivial
        · simp at h

theorem gsInstruction?_found {c n : UInt8} {i : Instruction}
    (h : gsInstruction? c n = some i) : i.Found := by
  unfold gsInstruction? at h
  split at h
  · obtain rfl := Option.some.inj h
    trivial
  · split at h
    · obtain ⟨cut, -, rfl⟩ := Option.map_eq_some_iff.mp h
      trivial
    · simp at h

theorem readParameter?_spec {command : UInt8 → Option Instruction} {bytes rest : List UInt8}
    {i : Instruction} (hc : ∀ {n k}, command n = some k → k.Found)
    (h : readParameter? command bytes = some (i, rest)) :
    rest.length < bytes.length ∧ i.Found := by
  unfold readParameter? at h
  split at h
  · obtain ⟨k, hk, hpair⟩ := Option.map_eq_some_iff.mp h
    obtain ⟨rfl, rfl⟩ := Prod.mk.inj hpair
    exact ⟨by simp, hc hk⟩
  · simp at h

theorem readRaster?_spec {bytes rest : List UInt8} {i : Instruction}
    (h : readRaster? bytes = some (i, rest)) : rest.length < bytes.length ∧ i.Found := by
  unfold readRaster? at h
  split at h
  · dsimp only at h
    split at h
    · rename_i hc
      obtain ⟨rfl, rfl⟩ := Prod.mk.inj (Option.some.inj h)
      refine ⟨by simp; omega, number16_le _ _, ?_⟩
      rw [List.length_take, Nat.min_eq_left hc.2.2]
    · simp at h
  · simp at h

/-- Reading takes at least one byte, and finds nothing but what a reader can find. -/
theorem readOne?_spec {bytes rest : List UInt8} {i : Instruction}
    (h : readOne? bytes = some (i, rest)) : rest.length < bytes.length ∧ i.Found := by
  -- Behind the first two bytes the parts of the reader are responsible.
  have behind {a b : UInt8} {tail : List UInt8} (hs : rest.length < tail.length ∧ i.Found) :
      rest.length < (a :: b :: tail).length ∧ i.Found := by
    refine ⟨?_, hs.2⟩
    simp only [List.length_cons]
    omega
  unfold readOne? at h
  split at h
  · simp at h
  · split at h
    · split at h
      · simp at h
      · split at h
        · obtain ⟨rfl, rfl⟩ := Prod.mk.inj (Option.some.inj h)
          exact ⟨by simp only [List.length_cons]; omega, trivial⟩
        · exact behind (readParameter?_spec escInstruction?_found h)
    · rename_i hesc
      split at h
      · split at h
        · simp at h
        · split at h
          · exact behind (readRaster?_spec h)
          · exact behind (readParameter?_spec gsInstruction?_found h)
      · rename_i hgs
        obtain ⟨rfl, rfl⟩ := Prod.mk.inj (Option.some.inj h)
        exact ⟨by simp, _, rfl, hesc, hgs⟩

/-- What a whole stream says, if it can be read to its end. -/
def read? (bytes : List UInt8) : Option (List Instruction) :=
  if bytes.isEmpty then some []
  else
    match _h : readOne? bytes with
    | none => none
    | some (i, rest) => (read? rest).map (i :: ·)
termination_by bytes.length
decreasing_by exact (readOne?_spec _h).1

@[simp] theorem read?_nil : read? [] = some [] := by
  rw [read?]
  rfl

theorem read?_of_readOne? {bytes rest : List UInt8} {i : Instruction}
    (h : readOne? bytes = some (i, rest)) : read? bytes = (read? rest).map (i :: ·) := by
  have hne : bytes.isEmpty = false := by
    cases bytes with
    | nil => simp [readOne?] at h
    | cons b tail => rfl
  rw [read?, hne]
  simp only [Bool.false_eq_true, if_false]
  split
  · rename_i hnone
    rw [h] at hnone
    simp at hnone
  · rename_i k tail hsome
    rw [h] at hsome
    obtain ⟨rfl, rfl⟩ := Prod.mk.inj (Option.some.inj hsome)
    rfl

theorem read?_found {bytes : List UInt8} :
    ∀ {is : List Instruction}, read? bytes = some is → ∀ i ∈ is, i.Found := by
  induction bytes using read?.induct with
  | case1 bytes hempty =>
      intro is h i hi
      rw [read?, if_pos hempty] at h
      obtain rfl := Option.some.inj h
      simp at hi
  | case2 bytes hne hone =>
      intro is h i hi
      rw [read?, if_neg hne] at h
      split at h
      · simp at h
      · rename_i hsome
        rw [hone] at hsome
        simp at hsome
  | case3 bytes hne k rest hone ih =>
      intro is h i hi
      rw [read?_of_readOne? hone] at h
      obtain ⟨tail, htail, rfl⟩ := Option.map_eq_some_iff.mp h
      rcases List.mem_cons.mp hi with rfl | hi
      · exact (readOne?_spec hone).2
      · exact ih htail i hi

theorem read?_whole {bytes : List UInt8} {is : List Instruction} (h : read? bytes = some is) :
    ∀ i ∈ is, i.Whole :=
  fun i hi => (read?_found h i hi).whole

end Receipt.EscPos
