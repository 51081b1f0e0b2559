/-
Reading a double from text.

The grammar: an optional sign, then `inf`, `infinity` or `nan` in any case, or
digits with an optional point on either side of which digits may be missing but
not on both, then an optional exponent.  The whole text has to be used: no
blanks, no separators between digits, no other base.
-/
import Receipt.Decimal.Basic
import Receipt.Text.Blank

namespace Receipt.Decimal

/-- A sign, if one stands in front, and the rest.  `true` is a minus. -/
def takeSign : List Char → Bool × List Char
  | '-' :: rest => (true, rest)
  | '+' :: rest => (false, rest)
  | rest => (false, rest)

/-- The digits in front and the rest. -/
def takeDigits (cs : List Char) : List Char × List Char :=
  (cs.takeWhile Char.isDigit, cs.dropWhile Char.isDigit)

/-- The exponent that ends a number: nothing, or `e` with at least one digit. -/
def exponent? : List Char → Option Int
  | [] => some 0
  | c :: rest =>
    if c == 'e' || c == 'E' then
      let (negative, digits) := takeSign rest
      let (run, more) := takeDigits digits
      if run.isEmpty || !more.isEmpty then none
      else some (if negative then -(digitsValue run : Int) else digitsValue run)
    else none

/-- A magnitude: digits, a point, digits, an exponent. -/
def magnitude? (cs : List Char) : Option Float :=
  let (whole, rest) := takeDigits cs
  let (part, rest) := match rest with
    | '.' :: rest => takeDigits rest
    | rest => ([], rest)
  if whole.isEmpty && part.isEmpty then none
  else (exponent? rest).map fun e =>
    toFloat (digitsValue (whole ++ part)) (e - part.length)

/-- The double that a text denotes, if it denotes one. -/
def parse? (s : String) : Option Float :=
  let (negative, rest) := takeSign s.toList
  let word := Text.lower (String.ofList rest)
  let value :=
    if word == "inf" || word == "infinity" then some (Float.ofBits 0x7FF0000000000000)
    else if word == "nan" then some (Float.ofBits 0x7FF8000000000000)
    else magnitude? rest
  value.map fun x => if negative then -x else x

end Receipt.Decimal
