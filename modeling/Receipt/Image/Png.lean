/-
Reading PNG pictures.

A picture is a row of chunks.  The header gives the size and the kind of samples,
a palette and the transparency may follow, then the deflated rows.  Every row
names a filter, by which its bytes were replaced with their distance from a
prediction.  Samples of fewer than eight bits are scaled up, palettes become
colors, and transparency becomes opacity.  Interlaced pictures are not read.
-/
import Receipt.Error
import Receipt.Image.Color
import Receipt.Image.Inflate

namespace Receipt.Png

/-- The bytes that every picture starts with. -/
def signature : List UInt8 :=
  [0x89, 0x50, 0x4E, 0x47, 0x0D, 0x0A, 0x1A, 0x0A]

/-! ### Chunks -/

/-- The byte at a place, zero behind the end. -/
def byteAt (data : Array UInt8) (i : Nat) : Nat :=
  (data.getD i 0).toNat

/-- Four bytes as a number, the highest first. -/
def number32 (data : Array UInt8) (i : Nat) : Nat :=
  ((byteAt data i * 256 + byteAt data (i + 1)) * 256 + byteAt data (i + 2)) * 256 +
    byteAt data (i + 3)

/-- One step of the check sum over a byte. -/
def checkBit (c : UInt32) : UInt32 :=
  if c &&& 1 = 1 then (0xEDB88320 : UInt32) ^^^ (c >>> 1) else c >>> 1

/-- The check sum after one byte more. -/
def checkByte (c : UInt32) (b : UInt8) : UInt32 :=
  (List.range 8).foldl (fun c _ => checkBit c) (c ^^^ b.toUInt32)

def checkSum (data : Array UInt8) : Nat :=
  (data.foldl checkByte 0xFFFFFFFF ^^^ 0xFFFFFFFF).toNat

/-- The kind of samples in the rows. -/
inductive ColorKind where
  | gray
  | rgb
  | palette
  | grayAlpha
  | rgba
  deriving DecidableEq, Repr

namespace ColorKind

/-- The kind of a number in the header. -/
def ofNumber? : Nat → Option ColorKind
  | 0 => some .gray
  | 2 => some .rgb
  | 3 => some .palette
  | 4 => some .grayAlpha
  | 6 => some .rgba
  | _ => none

def samples : ColorKind → Nat
  | .gray | .palette => 1
  | .grayAlpha => 2
  | .rgb => 3
  | .rgba => 4

/-- The numbers of bits that samples may have. -/
def depths : ColorKind → List Nat
  | .gray => [1, 2, 4, 8, 16]
  | .palette => [1, 2, 4, 8]
  | .rgb | .grayAlpha | .rgba => [8, 16]

end ColorKind

/-- What the header tells. -/
structure Header where
  width : Nat
  height : Nat
  bitDepth : Nat
  kind : ColorKind

/-- What the chunks in front of the rows tell. -/
structure Chunks where
  header : Option Header
  palette : Array UInt8
  transparency : Option (Array UInt8)
  rows : Array UInt8

/-- A picture that does not keep to the format. -/
def malformed {α : Type} (reason : String) : Except PictureError α :=
  .error (.malformed reason)

/-- The header of a chunk. -/
def readHeader (data : Array UInt8) : Except PictureError Header := do
  if data.size ≠ 13 then malformed "Invalid header chunk size."
  else
    let width := number32 data 0
    let height := number32 data 4
    let bitDepth := byteAt data 8
    match ColorKind.ofNumber? (byteAt data 9) with
    | none => malformed "Invalid color type."
    | some kind =>
      if width = 0 ∨ height = 0 then malformed "Invalid dimensions."
      else if ¬kind.depths.contains bitDepth then malformed "Invalid color/depth combination."
      else if byteAt data 10 ≠ 0 then malformed "Unknown compression method."
      else if byteAt data 11 ≠ 0 then malformed "Unknown filter method."
      else if byteAt data 12 ≠ 0 then malformed "Interlaced pictures are not read."
      else return ⟨width, height, bitDepth, kind⟩

/-- The names of the chunks that are understood. -/
def headerName : List UInt8 := [0x49, 0x48, 0x44, 0x52]
def paletteName : List UInt8 := [0x50, 0x4C, 0x54, 0x45]
def transparencyName : List UInt8 := [0x74, 0x52, 0x4E, 0x53]
def rowsName : List UInt8 := [0x49, 0x44, 0x41, 0x54]
def endName : List UInt8 := [0x49, 0x45, 0x4E, 0x44]

/-- The chunks from a place on.  The one behind the rows ends the work, whatever
it is; without it the rows might go on. -/
def readChunks (data : Array UInt8) : Nat → Nat → Chunks → Except PictureError Chunks
  | 0, _, _ => .error .endOfData
  | fuel + 1, start, chunks =>
    if data.size < start + 8 then .error .endOfData
    else
      let length := number32 data start
      let name := (data.extract (start + 4) (start + 8)).toList
      if ¬chunks.rows.isEmpty ∧ name ≠ rowsName then .ok chunks
      else if data.size < start + length + 12 then .error .endOfData
      else
        let body := data.extract (start + 8) (start + 8 + length)
        let told := number32 data (start + 8 + length)
        let sum := checkSum (data.extract (start + 4) (start + 8 + length))
        let critical := byteAt data (start + 4) / 32 % 2 = 0
        let next := readChunks data fuel (start + length + 12)
        if told ≠ sum then
          if critical then malformed "CRC error." else next chunks
        else if name = headerName then do
          let header ← readHeader body
          next { chunks with header := some header }
        else if chunks.header.isNone then malformed "IHDR chunk missing."
        else if name = paletteName then next { chunks with palette := body }
        else if name = transparencyName then next { chunks with transparency := some body }
        else if name = rowsName then next { chunks with rows := chunks.rows ++ body }
        else if name = endName then malformed "IDAT chunk missing."
        else next chunks

/-! ### Filters -/

/-- The neighbour that is nearest to what the slope predicts: the one to the left,
the one above, or the one between them. -/
def paeth (left above corner : Nat) : Nat :=
  let predicted : Int := left + above - corner
  let dLeft := (predicted - left).natAbs
  let dAbove := (predicted - above).natAbs
  let dCorner := (predicted - corner).natAbs
  if dLeft ≤ dAbove ∧ dLeft ≤ dCorner then left else if dAbove ≤ dCorner then above else corner

/-- What the filter of a row predicts from the three neighbours before a byte. -/
def predict (filter left above corner : Nat) : Nat :=
  match filter with
  | 1 => left
  | 2 => above
  | 3 => (left + above) / 2
  | 4 => paeth left above corner
  | _ => 0

/-- A row without its filter.  `stride` bytes make a dot. -/
def unfilterRow (filter stride : Nat) (above line : Array UInt8) : Array UInt8 :=
  line.foldl (fun row b =>
    let i := row.size
    let left := if stride ≤ i then byteAt row (i - stride) else 0
    let corner := if stride ≤ i then byteAt above (i - stride) else 0
    row.push (b.toNat + predict filter left (byteAt above i) corner).toUInt8) #[]

/-- The rows of a picture without their filters. -/
def unfilter (raw : Array UInt8) (rowBytes stride : Nat) :
    Nat → Nat → Array UInt8 → Array UInt8 → Except PictureError (Array UInt8)
  | 0, _, _, rows => .ok rows
  | count + 1, start, above, rows =>
    if 4 < byteAt raw start then malformed "Unknown filter method."
    else
      let line := raw.extract (start + 1) (start + 1 + rowBytes)
      let row := unfilterRow (byteAt raw start) stride above line
      unfilter raw rowBytes stride count (start + 1 + rowBytes) row (rows ++ row)

/-! ### Samples -/

def Header.rowBytes (h : Header) : Nat :=
  (h.width * h.kind.samples * h.bitDepth + 7) / 8

/-- The sample number `i` of the row number `y`. -/
def Header.sample (h : Header) (rows : Array UInt8) (y i : Nat) : Nat :=
  let start := y * h.rowBytes
  match h.bitDepth with
  | 8 => byteAt rows (start + i)
  | 16 => byteAt rows (start + 2 * i) * 256 + byteAt rows (start + 2 * i + 1)
  | depth =>
    let place := i * depth
    (byteAt rows (start + place / 8) >>> (8 - depth - place % 8)) % (1 <<< depth)

def Header.picture (h : Header) (channels : Channels) (depth : SampleDepth)
    (dot : Nat → Nat → List Nat) : Picture :=
  { width := h.width
    height := h.height
    channels := channels
    depth := depth
    samples := (Array.range h.height).flatMap fun y =>
      (Array.range h.width).flatMap fun x => (dot y x).toArray }

/-- The size of the samples once they have at least eight bits. -/
def Header.depth (h : Header) : SampleDepth :=
  if h.bitDepth = 16 then .sixteen else .eight

/-- A gray sample with at least eight bits. -/
def Header.scaleGray (h : Header) (v : Nat) : Nat :=
  if h.bitDepth < 8 then v * (255 / ((1 <<< h.bitDepth) - 1)) else v

/-- A sample of the transparency chunk, which keeps two bytes for each. -/
def Header.transparentSample (h : Header) (t : Array UInt8) (i : Nat) : Nat :=
  if h.bitDepth = 16 then byteAt t (2 * i) * 256 + byteAt t (2 * i + 1) else byteAt t (2 * i + 1)

/-- Full opacity, or none for the one color that is transparent. -/
def Header.opacity (h : Header) (transparent : Bool) : Nat :=
  if transparent then 0 else h.depth.max

/-- The picture of unfiltered rows. -/
def Header.toPicture (h : Header) (palette : Array UInt8) (transparency : Option (Array UInt8))
    (rows : Array UInt8) : Picture :=
  let dot (y x : Nat) : List Nat :=
    (List.range h.kind.samples).map fun k => h.sample rows y (x * h.kind.samples + k)
  let color (i : Nat) : List Nat :=
    [byteAt palette (3 * i), byteAt palette (3 * i + 1), byteAt palette (3 * i + 2)]
  match h.kind, transparency with
  | .gray, none => h.picture .gray h.depth fun y x => (dot y x).map h.scaleGray
  | .gray, some t =>
    h.picture .grayAlpha h.depth fun y x =>
      let v := h.sample rows y x
      [h.scaleGray v, h.opacity (v == h.transparentSample t 0)]
  | .rgb, none => h.picture .rgb h.depth dot
  | .rgb, some t =>
    h.picture .rgba h.depth fun y x =>
      dot y x ++ [h.opacity (dot y x == (List.range 3).map (h.transparentSample t))]
  | .palette, none => h.picture .rgb .eight fun y x => color (h.sample rows y x)
  | .palette, some t =>
    h.picture .rgba .eight fun y x =>
      let i := h.sample rows y x
      color i ++ [(t.getD i 255).toNat]
  | .grayAlpha, _ => h.picture .grayAlpha h.depth dot
  | .rgba, _ => h.picture .rgba h.depth dot

/-- The picture that bytes hold. -/
def decode (data : Array UInt8) : Except PictureError Picture := do
  let chunks ← readChunks data data.size 8 ⟨none, #[], none, #[]⟩
  match chunks.header with
  | none => malformed "IHDR chunk missing."
  | some h =>
    if h.kind = .palette ∧ chunks.palette.isEmpty then malformed "PLTE chunk missing."
    else
      let (raw, stop) := Inflate.inflate chunks.rows
      if raw.size < (h.rowBytes + 1) * h.height then
        if stop = some .corrupt then malformed "Corrupt deflate stream."
        else malformed "IDAT or fDAT chunk does not have enough data for image."
      else
        let stride := max (h.kind.samples * h.bitDepth / 8) 1
        let rows ← unfilter raw h.rowBytes stride h.height 0 #[] #[]
        return h.toPicture chunks.palette chunks.transparency rows

end Receipt.Png
