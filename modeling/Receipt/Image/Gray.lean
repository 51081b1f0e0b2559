/-
Pictures in shades of gray, one byte for each dot.
-/
namespace Receipt

/-- A picture in gray: its rows one after the other, 0 for black, 255 for white. -/
structure GrayImage where
  width : Nat
  height : Nat
  pixels : Array UInt8
  size_eq : pixels.size = width * height

namespace GrayImage

/-- The picture with a given shade at every place. -/
def ofFn (width height : Nat) (shade : Nat → Nat → UInt8) : GrayImage :=
  { width := width
    height := height
    pixels := Array.ofFn fun i : Fin (width * height) => shade (i.val % width) (i.val / width)
    size_eq := Array.size_ofFn }

/-- The shade at a place, black outside the picture. -/
def get (g : GrayImage) (x y : Nat) : UInt8 :=
  g.pixels.getD (y * g.width + x) 0

end GrayImage

end Receipt
