/-
Bytes as a table to read: sixteen in a line, with the offset of the first one
before them and their characters behind.
-/
namespace Receipt.HexDump

def digit (n : Nat) : Char :=
  if n < 10 then Char.ofNat ('0'.toNat + n) else Char.ofNat ('A'.toNat + (n - 10))

def byteDigits (b : UInt8) : List Char :=
  [digit (b.toNat / 16), digit (b.toNat % 16)]

/-- An offset in as many digits as it takes, at least eight. -/
def offsetDigits (n : Nat) : List Char :=
  let digits := (Nat.toDigits 16 n).map Char.toUpper
  List.replicate (8 - digits.length) '0' ++ digits

/-- A byte as a character, or a point where it is none to be seen. -/
def byteChar (b : UInt8) : Char :=
  if 0x20 ≤ b.toNat ∧ b.toNat ≤ 0x7E then Char.ofNat b.toNat else '.'

/-- The column of the digits: 47 characters. -/
def digitColumn (bytes : List UInt8) : List Char :=
  let digits := List.intercalate [' '] (bytes.map byteDigits)
  digits ++ List.replicate (47 - digits.length) ' '

/-- One line, for up to sixteen bytes from an offset on. -/
def line (offset : Nat) (bytes : List UInt8) : List Char :=
  offsetDigits offset ++ [' ', ' '] ++ digitColumn bytes ++ [' ', ' '] ++
    bytes.map byteChar ++ ['\n']

/-- The lines of bytes from an offset on.  A line takes at least one byte, so the
length bounds their number. -/
def lines : Nat → Nat → List UInt8 → List Char
  | 0, _, _ => []
  | fuel + 1, offset, bytes =>
    if bytes.isEmpty then []
    else line offset (bytes.take 16) ++ lines fuel (offset + 16) (bytes.drop 16)

def dump (bytes : List UInt8) : String :=
  String.ofList (lines bytes.length 0 bytes)

end Receipt.HexDump
