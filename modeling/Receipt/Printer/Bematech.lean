/-
The ESC/Bematech dialect, the native one of Bematech printers.

  reset            ESC @
  alignment        ESC a n
  double width     ESC W n
  double height    ESC d n
  emphasis         ESC E, off by ESC F
  feed             LF for every line
  cut              ESC w, partly by ESC m

`ESC d` doubles the height here, where it feeds in ESC/POS.  Characters are at
most doubled, and there are neither rasters nor a choice of code pages.
-/
import Receipt.Printer.Dialect

namespace Receipt.Bematech

/-- Any magnification above 1 doubles its axis. -/
def size (s : CharacterSize) : List UInt8 :=
  [esc, 0x57, flagByte (1 < s.width), esc, 0x64, flagByte (1 < s.height)]

/-- The bytes of a command. -/
def encode : Command → List UInt8
  | .reset => [esc, 0x40]
  | .align a => [esc, 0x61, a.number]
  | .size s => size s
  | .bold true => [esc, 0x45]
  | .bold false => [esc, 0x46]
  | .text s page => page.encode s
  | .feed lines => List.replicate lines lineFeed
  | .cut .full lines => List.replicate lines lineFeed ++ [esc, 0x77]
  | .cut .partly lines => List.replicate lines lineFeed ++ [esc, 0x6D]
  | .raster _ => []
  | .codePage _ => []

/-- The dialect, without rasters and code pages. -/
def dialect : Dialect :=
  { name := "escbematech", supports := fun _ => false, encode := encode }

end Receipt.Bematech
