/-
JSON values.

Numbers come in two kinds.  A token without point and exponent that fits 64 bits,
signed or not, is an integer and stays exact; any other number is a double.  The
two are never equal, so `1` and `1.0` stay apart when a value is passed through.
-/
import Receipt.Decimal.Shortest
import Receipt.Dict

namespace Receipt

namespace Json

/-- A JSON number. -/
inductive Number where
  | int (n : Int)
  | double (x : Float)
  deriving Inhabited

/-- Doubles are positional while the power of ten of their first digit lies
between -5 and 15. -/
def doubleFormat : Decimal.FloatFormat :=
  { plainFrom := -5, plainTo := 15, upMark := "e+", downMark := "e-" }

def Number.toFloat : Number → Float
  | .int n => Float.ofInt n
  | .double x => x

/-- The digits of an integer, or the shortest text that reads back as the double. -/
def Number.text : Number → String
  | .int n => if n < 0 then "-" ++ Nat.repr n.natAbs else Nat.repr n.natAbs
  | .double x => doubleFormat.write x

end Json

/-- A JSON value.  The members of an object stand in increasing order of their
keys. -/
inductive Json where
  | null
  | bool (b : Bool)
  | number (n : Json.Number)
  | string (s : String)
  | array (items : List Json)
  | object (members : List (String × Json))
  deriving Inhabited

namespace Json

def isNull : Json → Bool
  | .null => true
  | _ => false

def string? : Json → Option String
  | .string s => some s
  | _ => none

/-- The value under a key of an object. -/
def member? (k : String) : Json → Option Json
  | .object members => members.lookup k
  | _ => none

def ofDict (d : Dict Json) : Json :=
  .object d.entries

end Json

end Receipt
