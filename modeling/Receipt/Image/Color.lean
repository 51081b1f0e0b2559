/-
Pictures in color, and what is left of them on white paper.

Shades of gray keep their value.  The luminance of a color is a weighted mean of
its three parts, taken in floats of 32 bits.  What is transparent lets the white
of the paper through.
-/
import Receipt.Image.Gray

namespace Receipt

/-- The parts that a dot of a picture has. -/
inductive Channels where
  | gray
  | grayAlpha
  | rgb
  | rgba
  deriving DecidableEq, Repr

namespace Channels

def count : Channels → Nat
  | .gray => 1
  | .grayAlpha => 2
  | .rgb => 3
  | .rgba => 4

/-- Whether the last part is opacity. -/
def hasAlpha : Channels → Bool
  | .grayAlpha | .rgba => true
  | .gray | .rgb => false

/-- Whether the parts are colors. -/
def isColor : Channels → Bool
  | .rgb | .rgba => true
  | .gray | .grayAlpha => false

end Channels

inductive SampleDepth where
  | eight
  | sixteen
  deriving DecidableEq, Repr

/-- The greatest sample of a size. -/
def SampleDepth.max : SampleDepth → Nat
  | .eight => 255
  | .sixteen => 65535

/-- A picture: the samples of its dots, row by row. -/
structure Picture where
  width : Nat
  height : Nat
  channels : Channels
  depth : SampleDepth
  samples : Array Nat

namespace Picture

/-- A sample as one of eight bits. -/
def toEight (depth : SampleDepth) (v : Nat) : Nat :=
  match depth with
  | .eight => v
  | .sixteen => (v + 128) / 257

/-- A sample as a part of the greatest one. -/
def toUnit (depth : SampleDepth) (v : Nat) : Float32 :=
  Float32.ofNat v * (1.0 / Float32.ofNat depth.max)

/-- A part of one as a sample of eight bits, a half rounded up. -/
def ofUnit (x : Float32) : Nat :=
  (x * 255.0).round.toUInt8.toNat

/-- The weight of red in the luminance. -/
def redWeight : Float32 := Float32.ofBits 0x3E59C05B

def greenWeight : Float32 := Float32.ofBits 0x3F3715FC

def blueWeight : Float32 := Float32.ofBits 0x3D93CF75

def luminance (r g b : Float32) : Float32 :=
  ((0.0 + r * redWeight) + g * greenWeight) + b * blueWeight

/-- The luminance and opacity of the dot number `i`. -/
def lumaAlpha (p : Picture) (i : Nat) : Nat × Nat :=
  let sample (k : Nat) : Nat := p.samples.getD (i * p.channels.count + k) 0
  match p.channels with
  | .gray => (toEight p.depth (sample 0), 255)
  | .grayAlpha => (toEight p.depth (sample 0), toEight p.depth (sample 1))
  | .rgb => (ofUnit (luminanceOf sample), 255)
  | .rgba => (ofUnit (luminanceOf sample), ofUnit (toUnit p.depth (sample 3)))
where
  luminanceOf (sample : Nat → Nat) : Float32 :=
    luminance (toUnit p.depth (sample 0)) (toUnit p.depth (sample 1)) (toUnit p.depth (sample 2))

/-- A shade of the given opacity on white paper. -/
def onWhite (luma alpha : Nat) : UInt8 :=
  ((luma * alpha + 255 * (255 - alpha)) / 255).toUInt8

/-- The picture in gray on white paper. -/
def flatten (p : Picture) : GrayImage :=
  .ofFn p.width p.height fun x y =>
    let (luma, alpha) := p.lumaAlpha (y * p.width + x)
    onWhite luma alpha

end Picture

end Receipt
