/-
The images that printing a document will ask for.

Rasters are made before anything is printed, so what the walk will look up has to
be known beforehand: the images that stand in blocks, at any depth.  Those inside
rows, texts and unknown nodes are never printed and never asked for.
-/
import Receipt.Document.Node
import Receipt.Raster.Basic
import Receipt.Style.Resolve

namespace Receipt

/-- An image to print: where it comes from, and the widest raster that fits. -/
structure ImageKey where
  source : String
  maxWidthDots : Nat
  deriving DecidableEq, Repr

/-- Rasters made ahead, by image. -/
abbrev ImageCache := List (ImageKey × Raster)

/-- The raster of an image.  Of several, the last one added. -/
def ImageCache.find? (images : ImageCache) (key : ImageKey) : Option Raster :=
  images.lookup key

def ImageCache.add (images : ImageCache) (key : ImageKey) (r : Raster) : ImageCache :=
  (key, r) :: images

/-- How a node is printed. -/
inductive Role where
  /-- Not at all, with all that it holds. -/
  | skip
  /-- As text; what it holds are runs of that text. -/
  | text
  | image
  /-- As columns side by side. -/
  | row
  /-- Child after child. -/
  | block
  deriving DecidableEq, Repr

namespace Node

/-- How a node of a kind and style is printed. -/
def roleOf (kind : NodeKind) (style : Style) : Role :=
  match kind with
  | .other _ => .skip
  | .text | .textNode => .text
  | .image => .image
  | .document | .page | .view => if style.view.isRow then .row else .block

/-- How a node is printed. -/
def role (n : Node) : Role :=
  roleOf n.kind n.style

/-- The widest raster that an image may have: its own width in characters, or
that of the paper. -/
def imageWidthDots (n : Node) (paperWidth : Nat) : Nat :=
  Raster.dotsForColumns (max ((n.style.width? paperWidth).getD paperWidth) 1)

/-- The image that a node asks for, if it names a source. -/
def imageKey? (n : Node) (paperWidth : Nat) : Option ImageKey :=
  n.imageSource?.map fun source => ⟨source, n.imageWidthDots paperWidth⟩

end Node

mutual

/-- The images that printing a node reaches, in order, each time it reaches one. -/
def Node.reachedImages (paperWidth : Nat) : Node → List ImageKey
  | ⟨kind, props, style, children⟩ =>
    match Node.roleOf kind style with
    | .image => ((Node.mk kind props style children).imageKey? paperWidth).toList
    | .block => reachedImagesOf paperWidth children
    | .skip | .text | .row => []

def reachedImagesOf (paperWidth : Nat) : List Node → List ImageKey
  | [] => []
  | n :: rest => n.reachedImages paperWidth ++ reachedImagesOf paperWidth rest

end

/-- The images that printing a document asks for, each once, in order of the first
time. -/
def Node.imageRequests (root : Node) (paperWidth : Nat) : List ImageKey :=
  (root.reachedImages paperWidth).eraseDups

end Receipt
