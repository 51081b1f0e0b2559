/-
Resampling a picture to another size with the Lanczos kernel of three lobes.

Both directions are scaled one after the other, columns first.  A dot of the
result is a weighted mean of the dots around the place it comes from; when the
picture shrinks, the kernel is stretched so that every dot counts.  All of it is
done in floats of 32 bits, in the order written here, and nothing is rounded to a
byte before the end.
-/
import Receipt.Image.Gray

namespace Receipt.Resample

/-- The circle number in 32 bits. -/
def pi : Float32 := Float32.ofBits 0x40490FDB

/-- The kernel of an ideal low pass. -/
def sinc (t : Float32) : Float32 :=
  let a := t * pi
  if t == 0.0 then 1.0 else a.sin / a

/-- The kernel: three lobes on either side. -/
def lanczos (x : Float32) : Float32 :=
  if x.abs < 3.0 then sinc x * sinc (x / 3.0) else 0.0

/-- What a dot of the result takes from a line: the first place, and the weights
from there on. -/
structure Window where
  left : Nat
  weights : List Float32

/-- The least whole number from `low` to `high` that a float stands for. -/
def clampIndex (x : Float32) (low high : Nat) : Nat :=
  let n := x.toInt64.toInt
  (max (low : Int) (min n high)).toNat

/-- What the dot `i` takes when a line of `n` dots becomes one of `m`. -/
def window (n m i : Nat) : Window :=
  let ratio := Float32.ofNat n / Float32.ofNat m
  let scale := if ratio < 1.0 then 1.0 else ratio
  let support := 3.0 * scale
  let center := (Float32.ofNat i + 0.5) * ratio
  let left := clampIndex (center - support).floor 0 (n - 1)
  let right := clampIndex (center + support).ceil (left + 1) n
  let center := center - 0.5
  let raw := (List.range (right - left)).map fun k =>
    lanczos ((Float32.ofNat (left + k) - center) / scale)
  let sum := raw.foldl (· + ·) 0.0
  ⟨left, raw.map (· / sum)⟩

/-- The weighted sum over a window, from the place `k` on. -/
def weigh (value : Nat → Float32) : Nat → List Float32 → Float32 → Float32
  | _, [], sum => sum
  | k, w :: rest, sum => weigh value (k + 1) rest (sum + value k * w)

/-- One dot of a scaled line. -/
def Window.apply (w : Window) (value : Nat → Float32) : Float32 :=
  weigh value w.left w.weights 0.0

/-- A float as a shade: brought between black and white, a half rounded up. -/
def shade (x : Float32) : UInt8 :=
  let held := if x < 0.0 then 0.0 else if x > 255.0 then 255.0 else x
  held.round.toUInt8

/-- The columns of a picture scaled to `m` rows, one line after the other. -/
def scaleColumns (g : GrayImage) (m : Nat) : Array Float32 :=
  let windows := (Array.range m).map (window g.height m)
  windows.flatMap fun w =>
    (Array.range g.width).map fun x => w.apply fun y => (g.get x y).toFloat32

/-- Scale a picture to a given size. -/
def resize (g : GrayImage) (width height : Nat) : GrayImage :=
  if width = g.width ∧ height = g.height then g
  else
    let columns := scaleColumns g height
    let windows := (Array.range width).map (window g.width width)
    .ofFn width height fun x y =>
      shade ((windows.getD x ⟨0, []⟩).apply fun k => columns.getD (y * g.width + k) 0.0)

end Receipt.Resample
