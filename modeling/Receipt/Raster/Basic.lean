/-
Rasters: pictures of dots that a printer prints as they are.

A row takes a whole number of bytes.  The leftmost dot is the highest bit of the
first byte, and a bit that is set is a black dot.
-/
import Receipt.Error

namespace Receipt

/-- A packed picture of black and white dots. -/
structure Raster where
  /-- Dots in a row. -/
  width : Nat
  /-- Rows. -/
  height : Nat
  /-- The rows one after the other. -/
  data : List UInt8
  deriving DecidableEq, Repr

namespace Raster

/-- The bytes that a row of `width` dots takes. -/
def rowBytes (width : Nat) : Nat :=
  (width + 7) / 8

/-- The bytes that a raster of the given size takes, counted in 64 bits. -/
def byteCount (width height : Nat) : Nat :=
  rowBytes width * height % UInt64.size

/-- The widest row, in bytes, that a printer can be told of. -/
def maxRowBytes : Nat := 65535

def widthBytes (r : Raster) : Nat :=
  rowBytes r.width

/-- The data is as long as the dimensions ask for. -/
def Consistent (r : Raster) : Prop :=
  r.data.length = byteCount r.width r.height

instance (r : Raster) : Decidable r.Consistent :=
  inferInstanceAs (Decidable (_ = _))

/-- The raster of packed data, whose length has to agree with the dimensions. -/
def ofData (width height : Nat) (data : List UInt8) : Except Error Raster :=
  if width = 0 then .error (.image .zeroWidth)
  else if maxRowBytes < rowBytes width then .error (.image (.tooWide width))
  else if data.length ≠ byteCount width height then
    .error (.image (.wrongLength data.length (byteCount width height) width height))
  else .ok ⟨width, height, data⟩

/-- A white raster, at least one dot wide. -/
def blank (width height : Nat) : Raster :=
  let width := max width 1
  ⟨width, height, List.replicate (byteCount width height) 0⟩

theorem consistent_blank (width height : Nat) : (blank width height).Consistent := by
  simp [blank, Consistent]

theorem consistent_of_ofData {width height : Nat} {data : List UInt8} {r : Raster}
    (h : ofData width height data = .ok r) : r.Consistent := by
  unfold ofData at h
  split at h
  · simp at h
  · split at h
    · simp at h
    · split at h
      · simp at h
      · rename_i hlen
        obtain rfl := Except.ok.inj h
        exact Decidable.not_not.mp hlen

/-- Dots in the width of a character of normal size. -/
def dotsPerColumn : Nat := 12

/-- The width in dots of a number of characters, counted in 64 bits. -/
def dotsForColumns (columns : Nat) : Nat :=
  columns * dotsPerColumn % UInt64.size

end Raster

end Receipt
