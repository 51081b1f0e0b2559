/-
Dialects: how a family of printers spells commands in bytes.

A dialect only spells.  It keeps no state, so the bytes of a job are those of its
commands one after the other.  What a family of printers cannot do has an empty
spelling, and two such abilities can be asked for beforehand.
-/
import Receipt.Printer.Command

namespace Receipt

/-- Abilities that a family of printers may lack. -/
inductive Capability where
  | imagePrinting
  | codePageSelection
  deriving DecidableEq, Repr

/-- A spelling of commands. -/
structure Dialect where
  name : String
  supports : Capability → Bool
  encode : Command → List UInt8

namespace Dialect

/-- The bytes of a list of commands. -/
def encodeAll (d : Dialect) (commands : List Command) : List UInt8 :=
  commands.flatMap d.encode

end Dialect

/-- The byte that starts most commands. -/
def esc : UInt8 := 0x1B

/-- The byte that starts the commands for sizes, cuts and rasters. -/
def gs : UInt8 := 0x1D

/-- The byte that ends a line. -/
def lineFeed : UInt8 := 0x0A

/-- A number of 16 bits with its low byte first.  Higher bits are dropped. -/
def littleEndian16 (n : Nat) : List UInt8 :=
  [n.toUInt8, (n / 256).toUInt8]

/-- A count in parts that fit a byte: as many times 255 as possible, then the
rest. -/
def byteParts (total : Nat) : List UInt8 :=
  List.replicate (total / 255) 255 ++ if total % 255 = 0 then [] else [(total % 255).toUInt8]

/-- The number that both families know an alignment by. -/
def Alignment.number : Alignment → UInt8
  | .left => 0
  | .center => 1
  | .right => 2

/-- One for yes and zero for no. -/
def flagByte (b : Bool) : UInt8 :=
  if b then 1 else 0

end Receipt
