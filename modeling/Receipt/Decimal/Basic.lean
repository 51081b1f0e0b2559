/-
Decimal numbers and the doubles nearest to them.

A decimal is a natural number scaled by a power of ten.  Its double is the
nearest one, ties going to the even neighbour.  A magnitude past every double is
infinite and one below half of the least double is zero; both are decided from
the number of digits, so that an exponent with many digits costs nothing.
-/
namespace Receipt.Decimal

/-- How many decimal digits `n` has, none for zero. -/
def digitCount (n : Nat) : Nat :=
  if n = 0 then 0 else (Nat.toDigits 10 n).length

/-- The double nearest to `significand · 10 ^ exponent`. -/
def toFloat (significand : Nat) (exponent : Int) : Float :=
  let top := digitCount significand + exponent
  if significand = 0 then 0.0
  else if 310 < top then Float.ofBits 0x7FF0000000000000
  else if top < -330 then 0.0
  else Float.ofScientific significand (exponent < 0) exponent.natAbs

/-- The value of a run of decimal digits. -/
def digitsValue (cs : List Char) : Nat :=
  cs.foldl (fun n c => n * 10 + (c.toNat - '0'.toNat)) 0

end Receipt.Decimal
