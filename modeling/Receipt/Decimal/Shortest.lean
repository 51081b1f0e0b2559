/-
The shortest decimal that reads back as a given double.

A finite double is `m · 2 ^ q`, and the reals that round to it form an interval
around it, with its ends when `m` is even.  For one digit, two digits and so on,
the two neighbours of the value on the grid of decimals with that many digits are
tried in exact arithmetic.  The first grid with a neighbour inside the interval
wins; of two inside, the nearer one, and the even one at equal distance.
Seventeen digits are always enough.
-/
namespace Receipt.Decimal

/-- The parts of a finite double: it is `mantissa · 2 ^ exponent`, negated under
`negative`.  At a power of two the double below is only half as far as the one
above. -/
structure Binary where
  negative : Bool
  mantissa : Nat
  exponent : Int
  closeBelow : Bool

/-- The parts of a double that is neither infinite nor not a number. -/
def Binary.ofFloat (x : Float) : Binary :=
  let bits := x.toBits.toNat
  let unit := 1 <<< 52
  let fraction := bits % unit
  let scale := bits / unit % 2048
  { negative := bits >>> 63 == 1
    mantissa := if scale = 0 then fraction else unit + fraction
    exponent := (max scale 1 : Nat) - 1075
    closeBelow := fraction == 0 && 1 < scale }

/-- A decimal `significand · 10 ^ exponent`. -/
structure Scaled where
  significand : Nat
  exponent : Int
  deriving DecidableEq, Repr

/-- The same decimal without zeros at the end of its significand. -/
def Scaled.strip (fuel : Nat) (d : Scaled) : Scaled :=
  match fuel with
  | 0 => d
  | fuel + 1 =>
    if d.significand ≠ 0 ∧ d.significand % 10 = 0 then
      Scaled.strip fuel ⟨d.significand / 10, d.exponent + 1⟩
    else d

/-- A positive rational `num / den`. -/
structure Ratio where
  num : Nat
  den : Nat

/-- `n · b ^ e`, for an exponent of either sign. -/
def Ratio.scaled (n base : Nat) (e : Int) : Ratio :=
  if 0 ≤ e then ⟨n * Nat.pow base e.toNat, 1⟩ else ⟨n, Nat.pow base (-e).toNat⟩

/-- Order of two rationals, by cross multiplication. -/
def Ratio.compare (a b : Ratio) : Ordering :=
  Ord.compare (a.num * b.den) (b.num * a.den)

/-- The power of ten of the first digit of a positive rational. -/
def Ratio.leadingExponent (v : Ratio) : Int :=
  let guess : Int := (Nat.toDigits 10 v.num).length - (Nat.toDigits 10 v.den).length
  if (Ratio.scaled 1 10 guess).compare v == .gt then guess - 1 else guess

/-- The best decimal with `digits` digits, if one rounds to the value. -/
def shortestWith (b : Binary) (digits : Nat) : Option Scaled :=
  let v := Ratio.scaled b.mantissa 2 b.exponent
  let high := Ratio.scaled (2 * b.mantissa + 1) 2 (b.exponent - 1)
  let low :=
    if b.closeBelow then Ratio.scaled (4 * b.mantissa - 1) 2 (b.exponent - 2)
    else Ratio.scaled (2 * b.mantissa - 1) 2 (b.exponent - 1)
  let e := v.leadingExponent + 1 - digits
  let unit := Ratio.scaled 1 10 e
  let below := v.num * unit.den / (v.den * unit.num)
  let inside (n : Nat) : Bool :=
    let r := Ratio.scaled n 10 e
    let ends := b.mantissa % 2 == 0
    (r.compare low == .gt || (ends && r.compare low == .eq)) &&
      (r.compare high == .lt || (ends && r.compare high == .eq))
  let middle := Ratio.mk ((2 * below + 1) * unit.num) (2 * unit.den)
  match inside below, inside (below + 1) with
  | true, true =>
    match v.compare middle with
    | .lt => some ⟨below, e⟩
    | .gt => some ⟨below + 1, e⟩
    | .eq => some ⟨if below % 2 = 0 then below else below + 1, e⟩
  | true, false => some ⟨below, e⟩
  | false, true => some ⟨below + 1, e⟩
  | false, false => none

/-- The decimal with the fewest digits that reads back as the value. -/
def shortest (b : Binary) : Scaled :=
  if b.mantissa = 0 then ⟨0, 0⟩
  else
    let found := (List.range 17).findSome? fun n => shortestWith b (n + 1)
    ((found.getD ⟨b.mantissa, 0⟩).strip 20)

/-- How a double is written. -/
structure FloatFormat where
  /-- The least power of ten of the first digit that is written positionally. -/
  plainFrom : Int
  /-- The greatest power of ten of the first digit that is written positionally. -/
  plainTo : Int
  /-- What stands between the digits and a positive exponent. -/
  upMark : String
  /-- What stands between the digits and the magnitude of a negative exponent. -/
  downMark : String

/-- The digits of a decimal with a point after the first one, if more follow. -/
def pointed (digits : List Char) : List Char :=
  match digits with
  | first :: second :: more => first :: '.' :: second :: more
  | one => one

/-- The text of a finite double.  Whole numbers in positional notation keep one
zero after the point. -/
def FloatFormat.write (f : FloatFormat) (x : Float) : String :=
  let b := Binary.ofFloat x
  let d := shortest b
  let digits := Nat.toDigits 10 d.significand
  let top : Int := digits.length - 1 + d.exponent
  let body :=
    if f.plainFrom ≤ top ∧ top ≤ f.plainTo then
      if 0 ≤ d.exponent then
        digits ++ List.replicate d.exponent.toNat '0' ++ ['.', '0']
      else if 0 ≤ top then
        let whole := (top + 1).toNat
        digits.take whole ++ '.' :: digits.drop whole
      else
        '0' :: '.' :: List.replicate (-top - 1).toNat '0' ++ digits
    else
      let mark := if 0 ≤ top then f.upMark else f.downMark
      pointed digits ++ mark.toList ++ Nat.toDigits 10 top.natAbs
  String.ofList (if b.negative then '-' :: body else body)

end Receipt.Decimal
