/-
The style of a node: attributes with values of any shape.

Attributes are kept as they came, also those that make no sense, and are
understood only when they are asked for.
-/
import Receipt.Decimal.Parse
import Receipt.Json.Value
import Receipt.Text.Blank

namespace Receipt

/-- The attributes of a node by name. -/
abbrev Style := Dict Json

namespace Style

def string? (s : Style) (key : String) : Option String :=
  (s.get? key).bind Json.string?

/-- A reversed text without the units `px` at its end, however often they stand
there. -/
def dropPx : List Char → List Char
  | 'x' :: 'p' :: rest => dropPx rest
  | cs => cs

/-- The number in a text, which may carry the unit `px`. -/
def lengthText? (s : String) : Option Float :=
  let bare := (dropPx (Text.trim s).toList.reverse).reverse
  Decimal.parse? (Text.trim (String.ofList bare))

/-- The finite number that a value denotes as a length. -/
def length? (v : Json) : Option Float :=
  let x := match v with
    | .number n => some n.toFloat
    | .string s => lengthText? s
    | _ => none
  x.filter Float.isFinite

/-- The finite number of an attribute, given as a number or as a text. -/
def number? (s : Style) (key : String) : Option Float :=
  (s.get? key).bind length?

/-- One attribute more, or less if the value is `null`. -/
def overlayEntry (s : Style) (entry : String × Json) : Style :=
  if entry.2.isNull then s.erase entry.1 else s.insert entry.1 entry.2

/-- The attributes of `s` with those of `t` over them.  An attribute that is
`null` in `t` goes away. -/
def overlay (s t : Style) : Style :=
  t.entries.foldl overlayEntry s

/-- The styles one over the other, the first one lowest. -/
def merge (styles : List Style) : Style :=
  styles.foldl overlay Dict.empty

end Style

end Receipt
