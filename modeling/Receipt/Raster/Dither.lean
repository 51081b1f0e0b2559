/-
Dithering: shades of gray by black and white dots.

Intensity is what the printer sees: 0 is white paper, 1 a burned dot.  Three ways
to decide about a dot are known: a cut in the middle, a pattern of thresholds that
repeats every eight dots, and diffusion of what each dot gets wrong to the dots
that are still to come.

The arithmetic is a parameter.  Printing runs on floats of 32 bits; all the
constants involved are fractions with a power of two below, which those floats
and the rationals both hold exactly.
-/
import Receipt.Text.Blank

namespace Receipt

/-- The arithmetic of intensities. -/
class Intensity (α : Type) where
  add : α → α → α
  sub : α → α → α
  mul : α → α → α
  /-- A natural number over a power of two. -/
  ratio : Nat → Nat → α
  /-- Whether the first is greater. -/
  above : α → α → Bool

instance : Intensity Float32 where
  add := (· + ·)
  sub := (· - ·)
  mul := (· * ·)
  ratio n d := Float32.ofNat n / Float32.ofNat d
  above a b := a > b

/-- The ways to decide about a dot. -/
inductive Dithering where
  | threshold
  | bayer
  | floydSteinberg
  deriving DecidableEq, Repr, Inhabited

namespace Dithering

def ofName? (name : String) : Option Dithering :=
  [("threshold", .threshold), ("none", .threshold), ("bayer", .bayer),
    ("floyd-steinberg", .floydSteinberg), ("floyd_steinberg", .floydSteinberg),
    ("fs", .floydSteinberg)].lookup (Text.nameKey name)

/-- The way as diagnostics show it. -/
def describe : Dithering → String
  | .threshold => "Threshold"
  | .bayer => "Bayer"
  | .floydSteinberg => "FloydSteinberg"

end Dithering

namespace Dither

variable {α : Type} [Intensity α]

/-! ### Packing -/

/-- A byte of up to eight dots, the first one highest. -/
def packByte (dots : List Bool) : UInt8 :=
  (List.range 8).foldl (fun byte i => byte * 2 + if dots.getD i false then 1 else 0) 0

/-- The bytes of a row of dots, the last one filled up with white. -/
def packRow (dots : List Bool) : List UInt8 :=
  (List.range ((dots.length + 7) / 8)).map fun i => packByte (dots.drop (8 * i))

/-! ### A pattern of thresholds -/

/-- The order in which the dots of a square of eight by eight turn black. -/
def bayerMatrix : Array (Array Nat) := #[
  #[0, 32, 8, 40, 2, 34, 10, 42],
  #[48, 16, 56, 24, 50, 18, 58, 26],
  #[12, 44, 4, 36, 14, 46, 6, 38],
  #[60, 28, 52, 20, 62, 30, 54, 22],
  #[3, 35, 11, 43, 1, 33, 9, 41],
  #[51, 19, 59, 27, 49, 17, 57, 25],
  #[15, 47, 7, 39, 13, 45, 5, 37],
  #[63, 31, 55, 23, 61, 29, 53, 21]]

/-- The place of a dot in that order. -/
def bayerRank (x y : Nat) : Nat :=
  (bayerMatrix.getD (y % 8) #[]).getD (x % 8) 0

/-- The intensity above which a dot is black: half a step above its place in the
order, so that white never prints and black always does. -/
def bayerThreshold (x y : Nat) : α :=
  Intensity.ratio (2 * bayerRank x y + 1) 128

/-- Whether the dot at a place is black. -/
def bayerDot (x y : Nat) (v : α) : Bool :=
  Intensity.above v (bayerThreshold x y)

/-- Whether a dot is black by the cut in the middle. -/
def isDark (v : α) : Bool :=
  Intensity.above v (Intensity.ratio 1 2)

/-! ### Diffusion -/

/-- The image while errors are spread: the intensities with what they have
received, and the dots that are decided. -/
structure Diffusion (α : Type) where
  buffer : Array α
  dots : Array Bool

/-- Where a part of an error goes: dots to the right, which may be one to the left,
rows down, and sixteenths. -/
structure Share where
  dx : Int
  dy : Nat
  sixteenths : Nat

def shares : List Share :=
  [⟨1, 0, 7⟩, ⟨-1, 1, 3⟩, ⟨0, 1, 5⟩, ⟨1, 1, 1⟩]

/-- Add a share of the error at a place to the place it goes to, if that is inside
the image. -/
def spread (width height x y : Nat) (error : α) (buffer : Array α) (s : Share) : Array α :=
  let nx := (x : Int) + s.dx
  let ny := y + s.dy
  if 0 ≤ nx ∧ nx.toNat < width ∧ ny < height then
    buffer.modify (ny * width + nx.toNat) fun v =>
      Intensity.add v (Intensity.mul error (Intensity.ratio s.sixteenths 16))
  else buffer

/-- Decide about the dot at a place and spread what it gets wrong. -/
def diffuseDot (width height y : Nat) (d : Diffusion α) (x : Nat) : Diffusion α :=
  let old := d.buffer.getD (y * width + x) (Intensity.ratio 0 1)
  let black := isDark old
  let error := Intensity.sub old (Intensity.ratio (if black then 1 else 0) 1)
  ⟨shares.foldl (spread width height x y error) d.buffer, d.dots.push black⟩

def diffuseRow (width height : Nat) (d : Diffusion α) (y : Nat) : Diffusion α :=
  (List.range width).foldl (diffuseDot width height y) d

/-- The dots of an image whose errors are diffused, row by row. -/
def diffuse (intensity : Array α) (width height : Nat) : Array Bool :=
  ((List.range height).foldl (diffuseRow width height) ⟨intensity, #[]⟩).dots

/-! ### Images -/

/-- The dots of an image, row by row. -/
def dots (intensity : Array α) (width height : Nat) : Dithering → Array Bool
  | .threshold => intensity.map isDark
  | .bayer => intensity.mapIdx fun i v => bayerDot (i % max width 1) (i / max width 1) v
  | .floydSteinberg => diffuse intensity width height

/-- The bytes of up to `height` rows of dots. -/
def packRows (width : Nat) : Nat → List Bool → List UInt8
  | 0, _ => []
  | height + 1, dots =>
    if dots.isEmpty then []
    else packRow (dots.take width) ++ packRows width height (dots.drop width)

def packed (intensity : Array α) (width height : Nat) (d : Dithering) : List UInt8 :=
  packRows (max width 1) height (dots intensity width height d).toList

end Dither

end Receipt
