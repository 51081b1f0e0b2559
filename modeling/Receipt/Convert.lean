/-
Converting a document to the bytes that print it.

The images are made before anything else, every source being decoded once and
the first that cannot be printed ending the conversion.  What a printer is sent
is then a reset, the code page if it is asked for, the document, and the cut.
-/
import Receipt.Image.Source
import Receipt.Options
import Receipt.Raster.Rasterize
import Receipt.Walk.Basic

namespace Receipt.Convert

/-! ### Images -/

section

variable {m : Type → Type} [Monad m]

/-- A decoder of sources. -/
abbrev Decoder (m : Type → Type) := String → m (Except Error GrayImage)

/-- The pictures that have been decoded, and the rasters made of them. -/
structure Prepared where
  pictures : List (String × GrayImage)
  images : ImageCache

/-- The picture of a source, which is decoded unless it has been. -/
def pictureOf (decode : Decoder m) (p : Prepared) (source : String) :
    m (Except Error GrayImage) :=
  match p.pictures.lookup source with
  | some g => pure (.ok g)
  | none => decode source

/-- The state once an image has been made. -/
def Prepared.add (p : Prepared) (key : ImageKey) (g : GrayImage) (r : Raster) : Prepared :=
  let pictures :=
    if (p.pictures.lookup key.source).isSome then p.pictures
    else (key.source, g) :: p.pictures
  ⟨pictures, p.images.add key r⟩

/-- The rasters of the images that are asked for, in order, up to the first that
cannot be made. -/
def prepare (decode : Decoder m) (d : Dithering) (p : Prepared) :
    List ImageKey → m (Except Error Prepared)
  | [] => pure (.ok p)
  | key :: rest => do
    match ← pictureOf decode p key.source with
    | .error e => return .error e
    | .ok g =>
      match Raster.rasterize g key.maxWidthDots d with
      | .error e => return .error e
      | .ok r => prepare decode d (p.add key g r) rest

/-- The rasters of all images that a document asks for. -/
def decodeImages (root : Node) (o : Options) (decode : Decoder m) :
    m (Except Error ImageCache) := do
  let prepared ← prepare decode o.dither ⟨[], []⟩ (root.imageRequests o.paperWidth)
  return prepared.map Prepared.images

end

/-! ### Bytes -/

/-- The job that prints a document: reset, code page, document, cut. -/
def renderJob (root : Node) (o : Options) (d : Dialect) (images : ImageCache) :
    Except Error Job :=
  let j := (Job.start o.paperWidth o.encoding d).reset
  let j := if o.selectCodePage then j.selectCodePage else j
  match j.printNode images root with
  | (_, some e) => .error e
  | (j, none) =>
    .ok (match o.cut with
      | none => j
      | some c => j.cut c o.feedBeforeCut)

/-- The bytes that print a document whose images have been made. -/
def render (root : Node) (o : Options) (d : Dialect) (images : ImageCache) :
    Except Error (List UInt8) :=
  (renderJob root o d images).map Job.bytes

/-- The bytes that print a document.  For a printer without pictures nothing is
decoded. -/
def convert {m : Type → Type} [Monad m] (root : Node) (o : Options) (decode : Decoder m) :
    m (Except Error (List UInt8)) := do
  let d := o.dialect.dialect
  let images ←
    if d.supports .imagePrinting then decodeImages root o decode else pure (.ok [])
  return images.bind (render root o d)

end Receipt.Convert
