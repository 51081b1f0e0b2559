/-
Text in a column of fixed width.
-/
import Receipt.Printer.Format

namespace Receipt.Text

def spaces (n : Nat) : String :=
  String.ofList (List.replicate n ' ')

/-- The spaces before and after `length` characters in a column.  Of an odd rest
in the center, the larger half stands behind. -/
def padding (length width : Nat) (align : Alignment) : Nat × Nat :=
  let rest := width - length
  match align with
  | .left => (0, rest)
  | .right => (rest, 0)
  | .center => (rest / 2, rest - rest / 2)

def firstChars (n : Nat) (s : String) : String :=
  String.ofList (s.toList.take n)

/-- The text cut or padded to the width of a column. -/
def alignIn (s : String) (width : Nat) (align : Alignment) : String :=
  let s := firstChars width s
  let (left, right) := padding s.length width align
  spaces left ++ s ++ spaces right

end Receipt.Text
