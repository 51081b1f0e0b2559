/-
Dithered dots are the bits of a raster.

A byte is made by shifting.  After some dots it holds these and nothing else, the last one
lowest, and a dot more moves them up by one; after eight of them the first one is highest,
and nothing has been lost at the top.

The bytes of a row are asked for one dot at a time.  Behind the end of a row there is
neither a dot nor a bit that is set, so a packed row gives back what was packed at any
column, and not only at its own.

A row takes as many bytes as any other, so a dot is found behind the bytes of the rows above
it.  What is packed are the dots of all places in the order of reading, whichever way they
were decided; their number is all that the length depends on.
-/
import Mathlib.Data.List.GetD
import Mathlib.Data.Nat.Bitwise
import Receipt.Proofs.Convert.Images
import Receipt.Proofs.EscPos.Bands
import Receipt.Proofs.Raster.Recurrence

namespace Receipt

namespace Dither

open EscPos (dotOf)
open Raster (rowBytes)

/-! ### Eight dots -/

/-- The byte after some of its dots. -/
def byteAfter (dots : List Bool) (n : Nat) : UInt8 :=
  (List.range n).foldl (fun byte i => byte * 2 + if dots.getD i false then 1 else 0) 0

theorem byteAfter_succ (dots : List Bool) (n : Nat) :
    byteAfter dots (n + 1)
      = byteAfter dots n * 2 + if dots.getD n false then 1 else 0 := by
  unfold byteAfter
  rw [List.range_succ, List.foldl_append]
  rfl

/-- A byte that its dots have not filled yet loses nothing when it is shifted. -/
theorem toNat_byteAfter_succ {dots : List Bool} {n : Nat} (hn : n < 8)
    (h : (byteAfter dots n).toNat < 2 ^ n) :
    (byteAfter dots (n + 1)).toNat = Nat.bit (dots.getD n false) (byteAfter dots n).toNat := by
  have hfree : (byteAfter dots n).toNat < 2 ^ 7 :=
    Nat.lt_of_lt_of_le h (Nat.pow_le_pow_right (by decide) (Nat.le_of_lt_succ hn))
  rw [byteAfter_succ]
  cases dots.getD n false
  · simp [Nat.bit]
    omega
  · simp [Nat.bit]
    omega

theorem byteAfter_lt (dots : List Bool) {n : Nat} (hn : n ≤ 8) :
    (byteAfter dots n).toNat < 2 ^ n := by
  induction n with
  | zero => exact Nat.zero_lt_one
  | succ n ih =>
      have hlt := ih (Nat.le_of_succ_le hn)
      rw [toNat_byteAfter_succ hn hlt]
      exact Nat.bit_lt_two_pow_succ_iff.mpr hlt

/-- **The dots so far are the bits of the byte so far**, the last one lowest. -/
theorem testBit_byteAfter (dots : List Bool) {n : Nat} (hn : n ≤ 8) {i : Nat} (hi : i < n) :
    (byteAfter dots n).toNat.testBit (n - 1 - i) = dots.getD i false := by
  induction n with
  | zero => exact absurd hi (Nat.not_lt_zero i)
  | succ n ih =>
      rw [toNat_byteAfter_succ hn (byteAfter_lt dots (Nat.le_of_succ_le hn))]
      by_cases hlast : i = n
      · have hlowest : n + 1 - 1 - i = 0 := by omega
        rw [hlowest, Nat.testBit_bit_zero, hlast]
      · have hmoved : n + 1 - 1 - i = (n - 1 - i).succ := by omega
        rw [hmoved, Nat.testBit_bit_succ]
        exact ih (Nat.le_of_succ_le hn) (by omega)

theorem dotOf_packByte (dots : List Bool) (x : Nat) :
    dotOf x (packByte dots) = dots.getD (x % 8) false :=
  testBit_byteAfter dots (Nat.le_refl 8) (Nat.mod_lt x (by decide))

/-! ### A row -/

theorem length_packRow (dots : List Bool) : (packRow dots).length = rowBytes dots.length := by
  rw [packRow, List.length_map, List.length_range]
  rfl

/-- **A packed row tells the dot at any column**, and white for a column that it does not
have. -/
theorem dotOf_packRow (dots : List Bool) (x : Nat) :
    dotOf x ((packRow dots).getD (x / 8) 0) = dots.getD x false := by
  by_cases hbyte : x / 8 < rowBytes dots.length
  · have hread : (packRow dots).getD (x / 8) 0 = packByte (dots.drop (8 * (x / 8))) := by
      show ((List.range (rowBytes dots.length)).map
        fun i => packByte (dots.drop (8 * i))).getD (x / 8) 0 = _
      rw [List.getD_eq_getElem?_getD, List.getElem?_map, List.getElem?_range hbyte,
        Option.map_some, Option.getD_some]
    rw [hread, dotOf_packByte, List.getD_eq_getElem?_getD, List.getElem?_drop, Nat.div_add_mod,
      List.getD_eq_getElem?_getD]
  · have hbehind : dots.length ≤ x := by
      unfold rowBytes at hbyte
      omega
    have hshort : (packRow dots).length ≤ x / 8 := length_packRow dots ▸ Nat.le_of_not_lt hbyte
    rw [List.getD_eq_default _ _ hshort, List.getD_eq_default _ _ hbehind]
    exact Nat.zero_testBit _

/-- The first dots that are packed in bytes. -/
def unpackRow (count : Nat) (bytes : List UInt8) : List Bool :=
  (List.range count).map fun x => dotOf x (bytes.getD (x / 8) 0)

/-- **Unpacking a packed row gives it back**, however long it is. -/
theorem unpackRow_packRow (row : List Bool) : unpackRow row.length (packRow row) = row := by
  unfold unpackRow
  apply List.ext_getElem
  · rw [List.length_map, List.length_range]
  · intro x _ hx
    rw [List.getElem_map, List.getElem_range, dotOf_packRow, List.getD_eq_getElem _ _ hx]

/-! ### Rows -/

section

variable {width height : Nat} {dots : List Bool}

/-- A row before others. -/
theorem packRows_succ (hwidth : 1 ≤ width) (hlen : dots.length = width * (height + 1)) :
    packRows width (height + 1) dots
      = packRow (dots.take width) ++ packRows width height (dots.drop width) := by
  have hdots : dots ≠ [] := by
    intro hnil
    rw [hnil, List.length_nil, Nat.mul_succ] at hlen
    omega
  rw [packRows, if_neg (by simpa using hdots)]

theorem length_packRows (hwidth : 1 ≤ width) (hlen : dots.length = width * height) :
    (packRows width height dots).length = rowBytes width * height := by
  induction height generalizing dots with
  | zero => rfl
  | succ height ih =>
      rw [Nat.mul_succ] at hlen
      have hrest : (dots.drop width).length = width * height := by
        rw [List.length_drop]
        omega
      have hfirst : (dots.take width).length = width := by
        rw [List.length_take]
        omega
      rw [packRows_succ hwidth hlen, List.length_append, length_packRow, hfirst, ih hrest,
        Nat.mul_succ, Nat.add_comm]

/-- **The bytes of a row are found behind those of the rows above it.** -/
theorem getElem?_packRows (hwidth : 1 ≤ width) (hlen : dots.length = width * height) {y i : Nat}
    (hy : y < height) (hi : i < rowBytes width) :
    (packRows width height dots)[y * rowBytes width + i]?
      = (packRow ((dots.drop (y * width)).take width))[i]? := by
  induction height generalizing dots y with
  | zero => exact absurd hy (Nat.not_lt_zero y)
  | succ height ih =>
      rw [packRows_succ hwidth hlen]
      rw [Nat.mul_succ] at hlen
      have hrest : (dots.drop width).length = width * height := by
        rw [List.length_drop]
        omega
      have hfirst : (packRow (dots.take width)).length = rowBytes width := by
        rw [length_packRow, List.length_take]
        congr 1
        omega
      cases y with
      | zero =>
          rw [Nat.zero_mul, Nat.zero_add, Nat.zero_mul, List.drop_zero,
            List.getElem?_append_left (hfirst ▸ hi)]
      | succ y =>
          have hplace : (y + 1) * rowBytes width + i
              = (packRow (dots.take width)).length + (y * rowBytes width + i) := by
            rw [hfirst, Nat.succ_mul]
            omega
          rw [hplace, List.getElem?_append_right (Nat.le_add_right _ _), Nat.add_sub_cancel_left,
            ih hrest (Nat.lt_of_succ_lt_succ hy), List.drop_drop, Nat.succ_mul, Nat.add_comm width]

/-- **Packed rows tell every dot of the image**, and white from the end of a row to the end of
its last byte. -/
theorem dotOf_packRows (hwidth : 1 ≤ width) (hlen : dots.length = width * height) {x y : Nat}
    (hx : x < 8 * rowBytes width) (hy : y < height) :
    (packRows width height dots)[y * rowBytes width + x / 8]?.map (dotOf x)
      = some (if x < width then dots.getD (y * width + x) false else false) := by
  have hbyte : x / 8 < rowBytes width := by omega
  have hrow : ((dots.drop (y * width)).take width).length = width := by
    have hends : (y + 1) * width ≤ width * height := by
      rw [Nat.mul_comm width]
      exact Nat.mul_le_mul_right width hy
    rw [List.length_take, List.length_drop, hlen]
    rw [Nat.succ_mul] at hends
    omega
  have hfound : x / 8 < (packRow ((dots.drop (y * width)).take width)).length := by
    rw [length_packRow, hrow]
    exact hbyte
  have hdot := dotOf_packRow ((dots.drop (y * width)).take width) x
  rw [List.getD_eq_getElem _ _ hfound] at hdot
  rw [getElem?_packRows hwidth hlen hy hbyte, List.getElem?_eq_getElem hfound, Option.map_some,
    hdot, List.getD_eq_getElem?_getD, List.getElem?_take]
  split
  · rw [List.getElem?_drop, List.getD_eq_getElem?_getD]
  · rfl

end

/-! ### Images -/

/-- Bytes are the dots of an image: rows of whole bytes, the leftmost dot highest, and white
behind the last dot of a row. -/
structure Packs (width height : Nat) (dot : Nat → Nat → Bool) (bytes : List UInt8) : Prop where
  length : bytes.length = rowBytes width * height
  dots : ∀ x y, x < width → y < height →
    bytes[y * rowBytes width + x / 8]?.map (dotOf x) = some (dot x y)
  white : ∀ x y, width ≤ x → x < 8 * rowBytes width → y < height →
    bytes[y * rowBytes width + x / 8]?.map (dotOf x) = some false

/-- Bytes tell nothing of dots that are not there. -/
theorem Packs.congr {width height : Nat} {dot dot' : Nat → Nat → Bool} {bytes : List UInt8}
    (h : Packs width height dot bytes)
    (hdots : ∀ x y, x < width → y < height → dot x y = dot' x y) :
    Packs width height dot' bytes :=
  ⟨h.length, fun x y hx hy => hdots x y hx hy ▸ h.dots x y hx hy, h.white⟩

section

variable {α : Type} [Intensity α]

/-- Whether the dot at a place is black, by each of the ways to decide about it. -/
def decided (intensity : Array α) (width height : Nat) (d : Dithering) (x y : Nat) : Bool :=
  let v := intensity.getD (y * width + x) (Intensity.ratio 0 1)
  match d with
  | .threshold => isDark v
  | .bayer => bayerDot x y v
  | .floydSteinberg => (diffuse intensity width height).getD (y * width + x) false

variable {intensity : Array α} {width height : Nat}

/-- Each way decides about as many dots as there are places. -/
theorem size_dots (hsize : intensity.size = width * height) (d : Dithering) :
    (dots intensity width height d).size = width * height := by
  cases d with
  | threshold => exact Array.size_map.trans hsize
  | bayer => exact Array.size_mapIdx.trans hsize
  | floydSteinberg => exact size_diffuse

/-- The dots stand in the order of reading. -/
theorem getD_dots (hsize : intensity.size = width * height) (d : Dithering) {x y : Nat}
    (hx : x < width) (hy : y < height) :
    (dots intensity width height d).getD (y * width + x) false
      = decided intensity width height d x y := by
  have hplace : y * width + x < intensity.size := hsize ▸ place_lt hx hy
  cases d with
  | threshold =>
      simp only [dots, decided, Array.getD_eq_getD_getElem?, Array.getElem?_map,
        Array.getElem?_eq_getElem hplace, Option.map_some, Option.getD_some]
  | bayer =>
      have hwidth : max width 1 = width := by omega
      have hcolumn : (y * width + x) % width = x := by
        rw [Nat.mul_add_mod_self_right, Nat.mod_eq_of_lt hx]
      have hrow : (y * width + x) / width = y := by
        rw [Nat.mul_comm, Nat.mul_add_div (by omega), Nat.div_eq_of_lt hx, Nat.add_zero]
      simp only [dots, decided, Array.getD_eq_getD_getElem?, Array.getElem?_mapIdx,
        Array.getElem?_eq_getElem hplace, Option.map_some, Option.getD_some, hwidth, hcolumn, hrow]
  | floydSteinberg => rfl

/-- **A dithered image is packed as it was decided**, whichever way that was. -/
theorem packs_packed (hwidth : 1 ≤ width) (hsize : intensity.size = width * height)
    (d : Dithering) :
    Packs width height (decided intensity width height d) (packed intensity width height d) := by
  have hlen : (dots intensity width height d).toList.length = width * height := by
    rw [Array.length_toList, size_dots hsize]
  have hpacked : packed intensity width height d
      = packRows width height (dots intensity width height d).toList := by
    rw [packed, Nat.max_eq_left hwidth]
  constructor
  · rw [hpacked, length_packRows hwidth hlen]
  · intro x y hx hy
    have hin : x < 8 * rowBytes width := by
      unfold rowBytes
      omega
    rw [hpacked, dotOf_packRows hwidth hlen hin hy, if_pos hx, ← getD_dots hsize d hx hy,
      Array.getD_eq_getD_getElem?, List.getD_eq_getElem?_getD, Array.getElem?_toList]
  · intro x y hx hin hy
    rw [hpacked, dotOf_packRows hwidth hlen hin hy, if_neg (Nat.not_lt.mpr hx)]

/-- An image without columns takes no bytes. -/
theorem packed_eq_nil (hsize : intensity.size = 0) (height : Nat) (d : Dithering) :
    packed intensity 0 height d = [] := by
  have hdots : (dots intensity 0 height d).size = 0 := by
    rw [size_dots (hsize.trans (Nat.zero_mul height).symm), Nat.zero_mul]
  rw [packed, Array.eq_empty_of_size_eq_zero hdots]
  cases height <;> rfl

/-- An image is packed as it was decided, also one without columns. -/
theorem packs_decided (hsize : intensity.size = width * height) (d : Dithering) :
    Packs width height (decided intensity width height d) (packed intensity width height d) := by
  rcases Nat.eq_zero_or_pos width with rfl | hwidth
  · rw [packed_eq_nil (hsize.trans (Nat.zero_mul height)) height d]
    exact ⟨(Nat.zero_mul height).symm, fun _ _ hx => absurd hx (Nat.not_lt_zero _),
      fun _ _ _ hx => absurd hx (Nat.not_lt_zero _)⟩
  · exact packs_packed hwidth hsize d

end

end Dither

/-! ### Rasters of pictures -/

namespace Raster

open Dither

/-- A height that is scaled comes out of 32 bits. -/
theorem height_fit_lt {g : GrayImage} (h : g.height < UInt32.size) (maxWidth : Nat) :
    (fit g maxWidth).height < UInt32.size := by
  have hscaled : scaledHeight g maxWidth < UInt32.size :=
    Nat.max_lt.mpr ⟨UInt32.toNat_lt_size _, by decide⟩
  unfold fit
  split
  · unfold Resample.resize
    split
    · exact h
    · exact hscaled
  · exact h

/-- The bytes of a raster can be counted if its rows are not too wide and their number comes
out of 32 bits. -/
theorem byteCount_eq {width height : Nat} (hwide : rowBytes width ≤ maxRowBytes)
    (hheight : height < UInt32.size) : byteCount width height = rowBytes width * height := by
  have hcount : rowBytes width * height ≤ maxRowBytes * UInt32.size :=
    Nat.mul_le_mul hwide (Nat.le_of_lt hheight)
  exact Nat.mod_eq_of_lt (Nat.lt_of_le_of_lt hcount (by decide))

/-- Data of the right length is a raster unless its rows are too wide. -/
theorem ofData_eq_ok {width height : Nat} {data : List UInt8} (hwidth : 1 ≤ width)
    (hwide : rowBytes width ≤ maxRowBytes) (hlen : data.length = byteCount width height) :
    ofData width height data = .ok ⟨width, height, data⟩ := by
  unfold ofData
  rw [if_neg (Nat.ne_of_gt hwidth), if_neg (Nat.not_lt.mpr hwide), if_neg (not_not.mpr hlen)]

/-- Why a picture is not made into a raster. -/
inductive Refused (g : GrayImage) (maxWidth : Nat) : Error → Prop where
  | pixels (h : g.width = 0 ∨ g.height = 0) : Refused g maxWidth (.image .noPixels)
  | room (h : maxWidth = 0) : Refused g maxWidth (.image .noRoom)
  | width (h : maxRowBytes < rowBytes (min g.width maxWidth)) :
    Refused g maxWidth (.image (.tooWide (min g.width maxWidth)))

/-- **All that a picture can come to**: the dots of the picture that fits, or a reason that
has nothing to do with the length of its data. -/
theorem rasterize_cases {g : GrayImage} (h : g.height < UInt32.size) (maxWidth : Nat)
    (d : Dithering) :
    (∃ r, rasterize g maxWidth d = .ok r ∧
      r.width = min g.width maxWidth ∧ r.height = (fit g maxWidth).height ∧
      Packs r.width r.height
        (decided ((fit g maxWidth).pixels.map intensityOf) r.width r.height d) r.data) ∨
    ∃ e, Refused g maxWidth e ∧ rasterize g maxWidth d = .error e := by
  have hwidth := width_fit g maxWidth
  unfold rasterize
  split
  · rename_i hpixels
    exact Or.inr ⟨_, .pixels hpixels, rfl⟩
  · rename_i hpixels
    split
    · rename_i hroom
      exact Or.inr ⟨_, .room hroom, rfl⟩
    · rename_i hroom
      have hpos : 1 ≤ (fit g maxWidth).width := by
        rw [hwidth]
        omega
      by_cases hwide : maxRowBytes < rowBytes (fit g maxWidth).width
      · refine Or.inr ⟨_, .width (hwidth ▸ hwide), ?_⟩
        show ofData _ _ _ = _
        unfold ofData
        rw [if_neg (Nat.ne_of_gt hpos), if_pos hwide, hwidth]
      · have hsize : ((fit g maxWidth).pixels.map intensityOf).size
            = (fit g maxWidth).width * (fit g maxWidth).height :=
          Array.size_map.trans (fit g maxWidth).size_eq
        have hpacks := packs_packed hpos hsize d
        have hcount := byteCount_eq (Nat.le_of_not_lt hwide) (height_fit_lt h maxWidth)
        exact Or.inl ⟨_, ofData_eq_ok hpos (Nat.le_of_not_lt hwide)
          (hpacks.length.trans hcount.symm), hwidth, rfl, hpacks⟩

end Raster

namespace Dither

/-- **What dithering gives is a raster of the dots that were decided.**  However wide the image
is, each way fills as many bytes as there have to be, has the dot of each place at its bit,
and leaves what is behind the end of a row white.  So a picture, which tells its height in 32
bits, is made into a raster of its dots unless it has none, or no room, or rows that are too
wide, and its data is never of a wrong length; and a row that is packed is unpacked to what it
was. -/
theorem packed_is_raster {α : Type} [Intensity α] {intensity : Array α} {width height : Nat}
    (hwidth : 1 ≤ width) (hsize : intensity.size = width * height) (d : Dithering) :
    Packs width height (decided intensity width height d) (packed intensity width height d) ∧
    (∀ (g : GrayImage) (maxWidth : Nat), g.height < UInt32.size →
      (∃ r, Raster.rasterize g maxWidth d = .ok r ∧
        r.width = min g.width maxWidth ∧ r.height = (Raster.fit g maxWidth).height ∧
        Packs r.width r.height
          (decided ((Raster.fit g maxWidth).pixels.map Raster.intensityOf) r.width r.height d)
          r.data) ∨
      ∃ e, Raster.Refused g maxWidth e ∧ Raster.rasterize g maxWidth d = .error e) ∧
    ∀ row : List Bool, unpackRow row.length (packRow row) = row :=
  ⟨packs_packed hwidth hsize d, fun _ maxWidth h => Raster.rasterize_cases h maxWidth d,
    unpackRow_packRow⟩

/-- Two rows of nine dots, of which the last one takes a byte of its own. -/
theorem packed_is_raster_nine :
    1 ≤ 9 ∧ (Array.replicate 18 (3 / 5 : ℚ)).size = 9 * 2 ∧
    packed (Array.replicate 18 (3 / 5 : ℚ)) 9 2 .threshold = [0xFF, 0x80, 0xFF, 0x80] ∧
    Packs 9 2 (decided (Array.replicate 18 (3 / 5 : ℚ)) 9 2 .threshold)
      [0xFF, 0x80, 0xFF, 0x80] := by
  have hsize : (Array.replicate 18 (3 / 5 : ℚ)).size = 9 * 2 := rfl
  have hpacked : packed (Array.replicate 18 (3 / 5 : ℚ)) 9 2 .threshold
      = [0xFF, 0x80, 0xFF, 0x80] := by
    decide +kernel
  obtain ⟨hpacks, -, -⟩ := packed_is_raster (by decide) hsize .threshold
  exact ⟨by decide, hsize, hpacked, hpacked ▸ hpacks⟩

end Dither

end Receipt
