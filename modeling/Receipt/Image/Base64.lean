/-
Base64 with the standard alphabet.

Four symbols stand for three bytes, and two or three symbols at the end for one
or two.  Bits of the last symbol that belong to no byte have to be zero.  Data in
the wild comes with the padding it should have, with less, or with more, and
broken into lines: blanks are dropped, and data that is not padded as it should be
is read once more without any padding.
-/
import Receipt.Error

namespace Receipt.Base64

/-- The six bits that a symbol stands for. -/
def value? (b : UInt8) : Option Nat :=
  let n := b.toNat
  if 0x41 ≤ n ∧ n ≤ 0x5A then some (n - 0x41)
  else if 0x61 ≤ n ∧ n ≤ 0x7A then some (n - 0x61 + 26)
  else if 0x30 ≤ n ∧ n ≤ 0x39 then some (n - 0x30 + 52)
  else if n = 0x2B then some 62
  else if n = 0x2F then some 63
  else none

/-- The byte that fills up the last group. -/
def pad : UInt8 := 0x3D

/-- What is asked of the padding. -/
inductive Padding where
  /-- As much as makes the length a multiple of four. -/
  | canonical
  /-- None at all. -/
  | none
  deriving DecidableEq, Repr

/-- The bytes of a group of two, three or four symbols. -/
def groupBytes (symbols : List Nat) : List UInt8 :=
  match symbols with
  | [a, b, c, d] =>
    [(a * 4 + b / 16).toUInt8, (b % 16 * 16 + c / 4).toUInt8, (c % 4 * 64 + d).toUInt8]
  | [a, b, c] => [(a * 4 + b / 16).toUInt8, (b % 16 * 16 + c / 4).toUInt8]
  | [a, b] => [(a * 4 + b / 16).toUInt8]
  | _ => []

/-- The bits of the last symbol of a group that belong to no byte. -/
def restBits (symbols : List Nat) : Nat :=
  match symbols with
  | [_, _, c] => c % 4
  | [_, b] => b % 16
  | _ => 0

/-- The six bits of symbols at an offset, none of which may be padding. -/
def symbolsAt (offset : Nat) : List UInt8 → Except Base64Error (List Nat)
  | [] => .ok []
  | b :: rest =>
    match value? b with
    | some v => (symbolsAt (offset + 1) rest).map (v :: ·)
    | none => .error (.symbol b offset)

/-- The bytes of complete groups. -/
def wholeGroups : List Nat → List UInt8
  | a :: b :: c :: d :: rest => groupBytes [a, b, c, d] ++ wholeGroups rest
  | _ => []

/-- The symbols of the last group, of which `seen` bytes were read, and how much
padding follows them.  Padding stands behind two symbols at least, and nothing
stands behind padding. -/
def lastGroup (offset : Nat) : Nat → List UInt8 → Except Base64Error (List Nat × Nat)
  | _, [] => .ok ([], 0)
  | seen, b :: rest =>
    if b = pad then
      if seen < 2 then .error (.symbol b (offset + seen))
      else if rest.all (· == pad) then .ok ([], rest.length + 1)
      else .error (.symbol pad (offset + seen))
    else
      match value? b with
      | none => .error (.symbol b (offset + seen))
      | some v => do
        let (symbols, pads) ← lastGroup offset (seen + 1) rest
        return (v :: symbols, pads)

/-- The bytes of the last group, which starts at an offset. -/
def lastBytes (p : Padding) (offset : Nat) (input : List UInt8) :
    Except Base64Error (List UInt8) := do
  let (symbols, pads) ← lastGroup offset 0 input
  if symbols.length < 2 ∧ ¬input.isEmpty then throw (.length (offset + symbols.length))
  let padded := match p with
    | .canonical => (pads + symbols.length) % 4 == 0
    | .none => pads == 0
  if !padded then throw .padding
  if restBits symbols ≠ 0 then
    let last := symbols.length - 1
    throw (.lastSymbol (input.getD last 0) (offset + last))
  return groupBytes symbols

/-- A single byte too many that is no symbol is reported before all else. -/
def strayByte? (input : List UInt8) : Option Base64Error :=
  match input.reverse with
  | b :: before =>
    if input.length % 4 = 1 ∧ b ≠ pad ∧ (value? b).isNone then some (.symbol b before.length)
    else none
  | [] => none

/-- The bytes that a text stands for.  All groups but the last are complete. -/
def decode (p : Padding) (input : List UInt8) : Except Base64Error (List UInt8) := do
  if let some e := strayByte? input then throw e
  let split := (input.length - 1) / 4 * 4
  let symbols ← symbolsAt 0 (input.take split)
  let rest ← lastBytes p split (input.drop split)
  return wholeGroups symbols ++ rest

/-- The blanks that are dropped. -/
def isBlank (b : UInt8) : Bool :=
  b == 0x20 || b == 0x09 || b == 0x0A || b == 0x0C || b == 0x0D

/-- A text without padding at its end. -/
def stripPadding (input : List UInt8) : List UInt8 :=
  (input.reverse.dropWhile (· == pad)).reverse

/-- The bytes that a text stands for, whatever blanks and padding it has. -/
def decodeLoosely (s : String) : Except Base64Error (List UInt8) :=
  let compact := s.toUTF8.toList.filter fun b => !isBlank b
  match decode .canonical compact with
  | .ok bytes => .ok bytes
  | .error _ => decode .none (stripPadding compact)

end Receipt.Base64
