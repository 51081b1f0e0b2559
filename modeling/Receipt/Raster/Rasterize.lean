/-
From a picture in gray to a raster that fits the paper.

A picture that is too wide is scaled down, keeping its proportions; a narrower
one keeps its size.
-/
import Receipt.Image.Resample
import Receipt.Raster.Basic
import Receipt.Raster.Dither

namespace Receipt.Raster

/-- How dark a shade is: 1 for black and 0 for white. -/
def intensityOf (shade : UInt8) : Float32 :=
  1.0 - shade.toFloat32 / 255.0

/-- The height of a picture that is scaled down to a width, at least one row. -/
def scaledHeight (g : GrayImage) (width : Nat) : Nat :=
  let aspect := Float32.ofNat g.height / Float32.ofNat g.width
  max (Float32.ofNat width * aspect).round.toUInt32.toNat 1

/-- The picture, scaled down if it is wider than `maxWidth`. -/
def fit (g : GrayImage) (maxWidth : Nat) : GrayImage :=
  if maxWidth < g.width then Resample.resize g maxWidth (scaledHeight g maxWidth) else g

/-- The raster of a picture, at most `maxWidth` dots wide. -/
def rasterize (g : GrayImage) (maxWidth : Nat) (d : Dithering) : Except Error Raster :=
  if g.width = 0 ∨ g.height = 0 then .error (.image .noPixels)
  else if maxWidth = 0 then .error (.image .noRoom)
  else
    let g := fit g maxWidth
    ofData g.width g.height (Dither.packed (g.pixels.map intensityOf) g.width g.height d)

end Receipt.Raster
