/-
The ESC/POS dialect, which most receipt printers speak.

  reset            ESC @
  alignment        ESC a n
  character size   GS ! n
  emphasis         ESC E n
  feed             ESC d n
  cut              GS V n
  code page        ESC t n
  raster           GS v 0 0 xL xH yL yH data
-/
import Receipt.Printer.Dialect

namespace Receipt.EscPos

/-- Rows in one raster command, at most.  A higher raster is sent in bands, so
that no printer has to keep more. -/
def bandRows : Nat := 256

/-- Both magnifications in one byte, each less one: the width in the high half. -/
def sizeByte (s : CharacterSize) : UInt8 :=
  let s := s.clamped
  ((s.width - 1) <<< 4) ||| (s.height - 1)

/-- A feed.  A command feeds up to 255 lines, and no lines need no command. -/
def feed (lines : Nat) : List UInt8 :=
  (byteParts lines).flatMap fun n => [esc, 0x64, n]

/-- One band of a raster. -/
def band (rowBytes : Nat) (data : List UInt8) : List UInt8 :=
  [gs, 0x76, 0x30, 0] ++ littleEndian16 rowBytes ++ littleEndian16 (data.length / rowBytes) ++ data

/-- Data in parts of `size` bytes, the last of which may be shorter.  Every part
takes at least one byte, so the length bounds their number. -/
def parts (size : Nat) (data : List UInt8) : List (List UInt8) :=
  go data.length data
where
  go : Nat → List UInt8 → List (List UInt8)
    | 0, _ => []
    | fuel + 1, data =>
      if data.isEmpty then [] else data.take size :: go fuel (data.drop size)

/-- A raster, band by band. -/
def raster (r : Raster) : List UInt8 :=
  (parts (r.widthBytes * bandRows) r.data).flatMap (band r.widthBytes)

/-- The bytes of a command. -/
def encode : Command → List UInt8
  | .reset => [esc, 0x40]
  | .align a => [esc, 0x61, a.number]
  | .size s => [gs, 0x21, sizeByte s]
  | .bold on => [esc, 0x45, flagByte on]
  | .text s page => page.encode s
  | .feed lines => feed lines
  | .cut .full lines => feed lines ++ [gs, 0x56, 0]
  | .cut .partly lines => feed lines ++ [gs, 0x56, 1]
  | .raster r => raster r
  | .codePage page => [esc, 0x74, page.tableNumber]

/-- The dialect.  Its printers can do everything. -/
def dialect : Dialect :=
  { name := "escpos", supports := fun _ => true, encode := encode }

end Receipt.EscPos
