/-
What a printer can be told, before any dialect puts it into bytes.
-/
import Receipt.Printer.CodePage
import Receipt.Printer.Format
import Receipt.Raster.Basic

namespace Receipt

/-- What becomes of the paper at the end. -/
inductive Cut where
  /-- Through the whole width. -/
  | full
  /-- Leaving a small hinge. -/
  | partly
  deriving DecidableEq, Repr

/-- One thing a printer can be told. -/
inductive Command where
  /-- Return to the modes of a printer that has just been switched on. -/
  | reset
  | align (a : Alignment)
  | size (s : CharacterSize)
  | bold (on : Bool)
  /-- Print text in the characters of a code page. -/
  | text (s : String) (page : CodePage)
  | feed (lines : Nat)
  /-- Feed, then cut. -/
  | cut (c : Cut) (lines : Nat)
  | raster (r : Raster)
  | codePage (page : CodePage)
  deriving DecidableEq, Repr

end Receipt
