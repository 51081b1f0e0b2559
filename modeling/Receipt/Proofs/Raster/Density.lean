/-
How many dots a pattern of thresholds prints.

The matrix puts the places of a square of eight by eight in an order, so the thresholds of a
square are the middles of sixty-four equal steps, each of them once.  An intensity is above
as many of them as it has steps, to the nearest.

The pattern repeats every eight dots, across and down.  A square that moves by one dot
loses a line of thresholds and gets the same ones back at its other end, so all squares have as
many dots, wherever they lie; and an image that is made of squares has them once for each.

What is counted are bits of the packed bytes.  They are as many as the dots, since what is
behind the end of a row is white.
-/
import Mathlib.Algebra.BigOperators.Intervals
import Mathlib.Algebra.BigOperators.Ring.Finset
import Mathlib.Algebra.Group.Action.Defs
import Mathlib.Data.Rat.Floor
import Receipt.Proofs.Raster.Packed

namespace Receipt.Dither

open EscPos (dotOf)
open Raster (rowBytes)

/-- The black dots of a part of an image. -/
def blackIn (dot : Nat → Nat → Bool) (x y width height : Nat) : Nat :=
  ∑ j ∈ Finset.range height, ∑ i ∈ Finset.range width, (dot (x + i) (y + j)).toNat

/-- The bits of bytes that are set. -/
def bitsSet (bytes : List UInt8) : Nat :=
  (bytes.map fun byte => ∑ x ∈ Finset.range 8, (dotOf x byte).toNat).sum

/-- The dot at a place of a packed image. -/
def packedDot (width : Nat) (bytes : List UInt8) (x y : Nat) : Bool :=
  dotOf x (bytes.getD (y * rowBytes width + x / 8) 0)

/-! ### Sums in parts -/

/-- A sum over rows of the same length. -/
theorem sum_range_rows (f : Nat → Nat) (length rows : Nat) :
    ∑ k ∈ Finset.range (length * rows), f k
      = ∑ row ∈ Finset.range rows, ∑ i ∈ Finset.range length, f (row * length + i) := by
  induction rows with
  | zero => simp
  | succ rows ih =>
      rw [Nat.mul_succ, Finset.sum_range_add, ih, Finset.sum_range_succ, Nat.mul_comm rows]

/-- **What repeats has the same sum wherever a period starts.** -/
theorem sum_period {f : Nat → Nat} {n : Nat} (hf : ∀ i, f (i + n) = f i) (start : Nat) :
    ∑ i ∈ Finset.range n, f (start + i) = ∑ i ∈ Finset.range n, f i := by
  induction start with
  | zero => simp
  | succ start ih =>
      have hfirst : ∑ i ∈ Finset.range (n + 1), f (start + i)
          = (∑ i ∈ Finset.range n, f (start + 1 + i)) + f start := by
        rw [Finset.sum_range_succ']
        simp only [Nat.add_zero, Nat.add_assoc, Nat.add_comm 1]
      have hlast : ∑ i ∈ Finset.range (n + 1), f (start + i)
          = (∑ i ∈ Finset.range n, f (start + i)) + f start := by
        rw [Finset.sum_range_succ, hf]
      omega

/-- Many periods. -/
theorem sum_periods {f : Nat → Nat} {n : Nat} (hf : ∀ i, f (i + n) = f i) (count : Nat) :
    ∑ i ∈ Finset.range (n * count), f i = count * ∑ i ∈ Finset.range n, f i := by
  rw [sum_range_rows, Finset.sum_congr rfl fun row _ => sum_period hf (row * n),
    Finset.sum_const, Finset.card_range, smul_eq_mul]

/-! ### Bits and dots -/

theorem sum_map_eq_sum_range (bytes : List UInt8) (f : UInt8 → Nat) :
    (bytes.map f).sum = ∑ k ∈ Finset.range bytes.length, f (bytes.getD k 0) := by
  induction bytes with
  | nil => rfl
  | cons byte rest ih =>
      rw [List.map_cons, List.sum_cons, List.length_cons, Finset.sum_range_succ', ih, Nat.add_comm]
      rfl

namespace Packs

variable {width height : Nat} {dot : Nat → Nat → Bool} {bytes : List UInt8}

theorem packedDot_eq (h : Packs width height dot bytes) {x y : Nat} (hx : x < width)
    (hy : y < height) : packedDot width bytes x y = dot x y := by
  obtain ⟨byte, hbyte, hdot⟩ := Option.map_eq_some_iff.mp (h.dots x y hx hy)
  rw [packedDot, List.getD_eq_getElem?_getD, hbyte]
  exact hdot

theorem packedDot_behind (h : Packs width height dot bytes) {x y : Nat} (hx : width ≤ x)
    (hin : x < 8 * rowBytes width) (hy : y < height) : packedDot width bytes x y = false := by
  obtain ⟨byte, hbyte, hdot⟩ := Option.map_eq_some_iff.mp (h.white x y hx hin hy)
  rw [packedDot, List.getD_eq_getElem?_getD, hbyte]
  exact hdot

/-- The bits of a row are its dots. -/
theorem sum_row (h : Packs width height dot bytes) {y : Nat} (hy : y < height) :
    (∑ i ∈ Finset.range (rowBytes width), ∑ x ∈ Finset.range 8,
        (dotOf x (bytes.getD (y * rowBytes width + i) 0)).toNat)
      = ∑ x ∈ Finset.range width, (dot x y).toNat := by
  have hbits : ∀ i, ∀ x ∈ Finset.range 8,
      (dotOf x (bytes.getD (y * rowBytes width + i) 0)).toNat
        = (packedDot width bytes (i * 8 + x) y).toNat := by
    intro i x hx
    have hlt : x < 8 := Finset.mem_range.mp hx
    have hbyte : (i * 8 + x) / 8 = i := by omega
    have hbit : (i * 8 + x) % 8 = x % 8 := by omega
    unfold packedDot dotOf
    rw [hbyte, hbit]
  have hwide : rowBytes width * 8 = width + (8 * rowBytes width - width) := by
    unfold rowBytes
    omega
  rw [Finset.sum_congr rfl fun i _ => Finset.sum_congr rfl (hbits i),
    ← sum_range_rows (fun x => (packedDot width bytes x y).toNat), Nat.mul_comm 8, hwide,
    Finset.sum_range_add]
  have hdots : ∀ x ∈ Finset.range width, (packedDot width bytes x y).toNat = (dot x y).toNat :=
    fun x hx => by rw [h.packedDot_eq (Finset.mem_range.mp hx) hy]
  have hwhite : ∀ x ∈ Finset.range (8 * rowBytes width - width),
      (packedDot width bytes (width + x) y).toNat = 0 := by
    intro x hx
    have hlt := Finset.mem_range.mp hx
    rw [h.packedDot_behind (Nat.le_add_right width x) (by omega) hy]
    rfl
  rw [Finset.sum_congr rfl hdots, Finset.sum_eq_zero hwhite, Nat.add_zero]

/-- **As many bits are set as dots are black.** -/
theorem bitsSet_eq (h : Packs width height dot bytes) :
    bitsSet bytes = blackIn dot 0 0 width height := by
  unfold bitsSet blackIn
  rw [sum_map_eq_sum_range, h.length, sum_range_rows]
  simp only [Nat.zero_add]
  exact Finset.sum_congr rfl fun y hy => h.sum_row (Finset.mem_range.mp hy)

end Packs

/-! ### The pattern -/

/-- **The matrix is an order**: it has every place of it once. -/
theorem ranks_eq_range :
    (Finset.range 8 ×ˢ Finset.range 8).val.map (fun p => bayerRank p.2 p.1)
      = (Finset.range 64).val := by
  decide +kernel

section

variable {dot : Nat → Nat → Bool} (hacross : ∀ x y, dot (x + 8) y = dot x y)
  (hdown : ∀ x y, dot x (y + 8) = dot x y)

include hacross hdown

/-- Every square of what repeats has as many dots. -/
theorem blackIn_window (x y : Nat) : blackIn dot x y 8 8 = blackIn dot 0 0 8 8 := by
  unfold blackIn
  simp only [Nat.zero_add]
  have hrows : ∀ j, ∑ i ∈ Finset.range 8, (dot (x + i) (y + j)).toNat
      = ∑ i ∈ Finset.range 8, (dot i (y + j)).toNat :=
    fun j => sum_period (f := fun i => (dot i (y + j)).toNat) (fun i => by rw [hacross]) x
  rw [Finset.sum_congr rfl fun j _ => hrows j]
  exact sum_period (f := fun j => ∑ i ∈ Finset.range 8, (dot i j).toNat)
    (fun j => by simp only [hdown]) y

/-- An image of squares has the dots of as many. -/
theorem blackIn_squares (columns rows : Nat) :
    blackIn dot 0 0 (8 * columns) (8 * rows) = rows * (columns * blackIn dot 0 0 8 8) := by
  unfold blackIn
  simp only [Nat.zero_add]
  have hrows : ∀ j, ∑ i ∈ Finset.range (8 * columns), (dot i j).toNat
      = columns * ∑ i ∈ Finset.range 8, (dot i j).toNat :=
    fun j => sum_periods (f := fun i => (dot i j).toNat) (fun i => by rw [hacross]) columns
  rw [Finset.sum_congr rfl fun j _ => hrows j,
    sum_periods (f := fun j => columns * ∑ i ∈ Finset.range 8, (dot i j).toNat)
      (fun j => by simp only [hdown]), ← Finset.mul_sum]

end

/-- A square has a dot for each step that the intensity is above. -/
theorem blackIn_bayerDot {α : Type} [Intensity α] (v : α) :
    blackIn (fun x y => bayerDot x y v) 0 0 8 8
      = ∑ rank ∈ Finset.range 64, (Intensity.above v (Intensity.ratio (2 * rank + 1) 128)).toNat := by
  unfold blackIn
  simp only [Nat.zero_add]
  rw [← Finset.sum_product']
  unfold Finset.sum
  rw [← ranks_eq_range, Multiset.map_map]
  rfl

/-! ### Steps -/

/-- The numbers below a bound. -/
theorem sum_lt_bound (bound count : Nat) :
    ∑ k ∈ Finset.range count, (decide (k < bound)).toNat = min count bound := by
  induction count with
  | zero => simp
  | succ count ih =>
      rw [Finset.sum_range_succ, ih]
      by_cases h : count < bound
      · rw [decide_eq_true h, Bool.toNat_true]
        omega
      · rw [decide_eq_false h, Bool.toNat_false]
        omega

/-- An intensity is above the middle of a step exactly if the step is one of those that it
has, to the nearest. -/
theorem above_step_iff (v : ℚ) (rank : Nat) :
    Intensity.above v (Intensity.ratio (2 * rank + 1) 128) = true ↔
      rank < ⌈64 * v - 1 / 2⌉₊ := by
  show decide (((2 * rank + 1 : ℕ) : ℚ) / ((128 : ℕ) : ℚ) < v) = true ↔ _
  rw [decide_eq_true_iff, Nat.lt_ceil, div_lt_iff₀ (by norm_num)]
  push_cast
  constructor <;> intro h <;> linarith

/-- **A square has as many dots as the intensity has steps**, to the nearest. -/
theorem blackIn_bayerDot_eq_ceil {v : ℚ} (hv : 0 ≤ v ∧ v ≤ 1) :
    (blackIn (fun x y => bayerDot x y v) 0 0 8 8 : ℤ) = ⌈64 * v - 1 / 2⌉ := by
  have hsteps : ∀ rank, Intensity.above v (Intensity.ratio (2 * rank + 1) 128)
      = decide (rank < ⌈64 * v - 1 / 2⌉₊) :=
    fun rank => by rw [Bool.eq_iff_iff, above_step_iff, decide_eq_true_iff]
  have hmost : ⌈64 * v - 1 / 2⌉₊ ≤ 64 := by
    rw [Nat.ceil_le]
    push_cast
    linarith [hv.2]
  rw [blackIn_bayerDot, Finset.sum_congr rfl fun rank _ => congrArg Bool.toNat (hsteps rank),
    sum_lt_bound, Nat.min_eq_right hmost]
  exact Int.natCast_ceil_eq_ceil_of_neg_one_lt (by linarith [hv.1])

/-! ### Even images -/

theorem bayerDot_across {α : Type} [Intensity α] (v : α) (x y : Nat) :
    bayerDot (x + 8) y v = bayerDot x y v := by
  unfold bayerDot bayerThreshold bayerRank
  rw [Nat.add_mod_right]

theorem bayerDot_down {α : Type} [Intensity α] (v : α) (x y : Nat) :
    bayerDot x (y + 8) v = bayerDot x y v := by
  unfold bayerDot bayerThreshold bayerRank
  rw [Nat.add_mod_right]

/-- An image of one intensity is packed as the pattern of it. -/
theorem packs_bayer {α : Type} [Intensity α] (v : α) (width height : Nat) :
    Packs width height (fun x y => bayerDot x y v)
      (packed (Array.replicate (width * height) v) width height .bayer) := by
  refine (packs_decided Array.size_replicate .bayer).congr fun x y hx hy => ?_
  unfold decided
  rw [Array.getD_eq_getD_getElem?, Array.getElem?_replicate, if_pos (place_lt hx hy)]
  rfl

/-- **Bayer dithering keeps gray levels.**  An even image of squares has as many bits set as
there are squares, times the steps of its intensity; and every square of it, wherever it lies, has
as many dots as there are steps. -/
theorem bayer_density {width height : Nat} (hwidth : 8 ∣ width) (hheight : 8 ∣ height) {v : ℚ}
    (hv : 0 ≤ v ∧ v ≤ 1) :
    let bytes := packed (Array.replicate (width * height) v) width height .bayer
    (bitsSet bytes : ℤ) = (width * height / 64 : ℕ) * ⌈64 * v - 1 / 2⌉ ∧
    ∀ x y, x + 8 ≤ width → y + 8 ≤ height →
      (blackIn (packedDot width bytes) x y 8 8 : ℤ) = ⌈64 * v - 1 / 2⌉ := by
  intro bytes
  have hpacks : Packs width height (fun x y => bayerDot x y v) bytes := packs_bayer v width height
  refine ⟨?_, fun x y hx hy => ?_⟩
  · obtain ⟨columns, rfl⟩ := hwidth
    obtain ⟨rows, rfl⟩ := hheight
    have hsquares : 8 * columns * (8 * rows) / 64 = rows * columns := by
      rw [show 8 * columns * (8 * rows) = 64 * (rows * columns) by ring]
      exact Nat.mul_div_cancel_left _ (by decide)
    rw [hpacks.bitsSet_eq, blackIn_squares (bayerDot_across v) (bayerDot_down v), ← Nat.mul_assoc,
      hsquares, Nat.cast_mul, blackIn_bayerDot_eq_ceil hv]
  · have hdots : blackIn (packedDot width bytes) x y 8 8
        = blackIn (fun x y => bayerDot x y v) x y 8 8 := by
      unfold blackIn
      refine Finset.sum_congr rfl fun j hj => Finset.sum_congr rfl fun i hi => ?_
      rw [hpacks.packedDot_eq (by have := Finset.mem_range.mp hi; omega)
        (by have := Finset.mem_range.mp hj; omega)]
    rw [hdots, blackIn_window (bayerDot_across v) (bayerDot_down v), blackIn_bayerDot_eq_ceil hv]

/-- A gray of three eighths, of which nothing is left over, and a window between four squares. -/
theorem bayer_density_gray :
    8 ∣ 16 ∧ 8 ∣ 16 ∧ (0 ≤ (3 / 8 : ℚ) ∧ (3 / 8 : ℚ) ≤ 1) ∧ ⌈64 * (3 / 8 : ℚ) - 1 / 2⌉ = 24 ∧
    bitsSet (packed (Array.replicate (16 * 16) (3 / 8 : ℚ)) 16 16 .bayer) = 96 ∧
    blackIn (packedDot 16 (packed (Array.replicate (16 * 16) (3 / 8 : ℚ)) 16 16 .bayer)) 3 5 8 8
      = 24 := by
  have hwhole : 8 ∣ 16 := by decide
  have hrange : 0 ≤ (3 / 8 : ℚ) ∧ (3 / 8 : ℚ) ≤ 1 := by norm_num
  have hsteps : ⌈64 * (3 / 8 : ℚ) - 1 / 2⌉ = 24 := by
    rw [Int.ceil_eq_iff]
    norm_num
  obtain ⟨hbits, hwindow⟩ := bayer_density hwhole hwhole hrange
  have hsquare := hwindow 3 5 (by decide) (by decide)
  rw [hsteps] at hbits hsquare
  exact ⟨hwhole, hwhole, hrange, hsteps, by exact_mod_cast hbits, by exact_mod_cast hsquare⟩

end Receipt.Dither
