/-
Inflating data that was deflated.

The data is a string of bits, the lowest bit of each byte first.  It falls into
blocks: bytes that are stored as they are, or codes of varying length for bytes
and for copies of what came out before.  Every step takes at least one bit, so
their number bounds the work.

What came out before the data broke off is kept: a picture may be complete while
its data is not.
-/
namespace Receipt.Inflate

/-- Why inflating stops before the last block is done. -/
inductive Stop where
  | endOfData
  | corrupt
  deriving DecidableEq, Repr

/-- The state: the place of the next bit, and what came out so far. -/
structure State where
  position : Nat
  out : Array UInt8

/-- A step on given data.  A step that fails leaves what came out before it. -/
abbrev Step := ReaderT (Array UInt8) (EStateM Stop State)

def bit : Step Nat := do
  let data ← read
  let s ← get
  match data[s.position / 8]? with
  | none => throw .endOfData
  | some byte =>
    set { s with position := s.position + 1 }
    return (byte.toNat >>> (s.position % 8)) % 2

/-- The next `n` bits as a number, the lowest first. -/
def bits : Nat → Step Nat
  | 0 => return 0
  | n + 1 => do
    let low ← bit
    let high ← bits n
    return low + 2 * high

def emit (b : UInt8) : Step Unit :=
  modify fun s => { s with out := s.out.push b }

/-! ### Codes -/

/-- A prefix code: how many words there are of each length from 1 on, and the
symbols in order of their words. -/
structure Code where
  counts : List Nat
  symbols : Array Nat

/-- The code in which the symbol `i` has a word of `lengths[i]` bits, or none if
that is zero.  Words of one length are given in the order of the symbols. -/
def Code.ofLengths (lengths : Array Nat) : Code :=
  let ofLength (n : Nat) : List Nat :=
    (List.range lengths.size).filter fun i => lengths.getD i 0 == n
  let groups := (List.range 15).map fun i => ofLength (i + 1)
  { counts := groups.map List.length, symbols := groups.flatten.toArray }

/-- The next symbol, where `word` is the word read so far, `first` the first word
of its length and `index` the place of that word's symbol. -/
def Code.next (c : Code) (word first index : Nat) : List Nat → Step Nat
  | [] => throw .corrupt
  | count :: rest => do
    let word := word + (← bit)
    if word < first + count then
      match c.symbols[index + (word - first)]? with
      | some symbol => return symbol
      | none => throw .corrupt
    else c.next (2 * word) (2 * (first + count)) (index + count) rest

def Code.symbol (c : Code) : Step Nat :=
  c.next 0 0 0 c.counts

/-! ### Blocks -/

/-- The shortest copy of each length symbol, and how many bits add to it. -/
def lengthTable : Array (Nat × Nat) := #[
  (3, 0), (4, 0), (5, 0), (6, 0), (7, 0), (8, 0), (9, 0), (10, 0), (11, 1), (13, 1), (15, 1),
  (17, 1), (19, 2), (23, 2), (27, 2), (31, 2), (35, 3), (43, 3), (51, 3), (59, 3), (67, 4),
  (83, 4), (99, 4), (115, 4), (131, 5), (163, 5), (195, 5), (227, 5), (258, 0)]

/-- The nearest source of each distance symbol, and how many bits add to it. -/
def distanceTable : Array (Nat × Nat) := #[
  (1, 0), (2, 0), (3, 0), (4, 0), (5, 1), (7, 1), (9, 2), (13, 2), (17, 3), (25, 3), (33, 4),
  (49, 4), (65, 5), (97, 5), (129, 6), (193, 6), (257, 7), (385, 7), (513, 8), (769, 8),
  (1025, 9), (1537, 9), (2049, 10), (3073, 10), (4097, 11), (6145, 11), (8193, 12), (12289, 12),
  (16385, 13), (24577, 13)]

/-- The number of an entry of one of the tables. -/
def tableValue (table : Array (Nat × Nat)) (symbol : Nat) : Step Nat :=
  match table[symbol]? with
  | some (base, extra) => do return base + (← bits extra)
  | none => throw .corrupt

/-- Append `n` bytes, each a copy of the one `distance` bytes before it. -/
def copy (distance : Nat) : Nat → Step Unit
  | 0 => return
  | n + 1 => do
    let s ← get
    match s.out[s.out.size - distance]? with
    | some b => emit b
    | none => throw .corrupt
    copy distance n

/-- The rest of a block in codes, up to its end mark. -/
def codedBlock (literals distances : Code) : Nat → Step Unit
  | 0 => throw .endOfData
  | fuel + 1 => do
    let symbol ← literals.symbol
    if symbol < 256 then
      emit symbol.toUInt8
      codedBlock literals distances fuel
    else if symbol = 256 then return
    else
      let length ← tableValue lengthTable (symbol - 257)
      let distance ← tableValue distanceTable (← distances.symbol)
      if (← get).out.size < distance then throw .corrupt
      copy distance length
      codedBlock literals distances fuel

/-- The code for bytes and lengths of a block that brings none. -/
def fixedLiterals : Code :=
  .ofLengths <| Array.replicate 144 8 ++ Array.replicate 112 9 ++ Array.replicate 24 7 ++
    Array.replicate 8 8

/-- The code for distances of a block that brings none. -/
def fixedDistances : Code :=
  .ofLengths (Array.replicate 30 5)

/-- The order in which the lengths of the code for code lengths come. -/
def lengthOrder : List Nat :=
  [16, 17, 18, 0, 8, 7, 9, 6, 10, 5, 11, 4, 12, 3, 13, 2, 14, 1, 15]

/-- The lengths of the code for code lengths. -/
def metaLengths : List Nat → Array Nat → Step (Array Nat)
  | [], lengths => return lengths
  | i :: rest, lengths => do
    let n ← bits 3
    metaLengths rest (lengths.setIfInBounds i n)

/-- The lengths of two codes, until there are `total`.  Symbols from 16 on repeat:
the last length, or zero. -/
def codeLengths (code : Code) (total : Nat) : Nat → Array Nat → Step (Array Nat)
  | 0, _ => throw .endOfData
  | fuel + 1, lengths => do
    if total ≤ lengths.size then
      if lengths.size = total then return lengths else throw .corrupt
    let symbol ← code.symbol
    if symbol < 16 then codeLengths code total fuel (lengths.push symbol)
    else if symbol = 16 then
      match lengths.back? with
      | none => throw .corrupt
      | some last =>
        let n ← bits 2
        codeLengths code total fuel (lengths ++ Array.replicate (3 + n) last)
    else
      let n ← if symbol = 17 then (3 + ·) <$> bits 3 else (11 + ·) <$> bits 7
      codeLengths code total fuel (lengths ++ Array.replicate n 0)

/-- The two codes that a block brings. -/
def dynamicCodes : Step (Code × Code) := do
  let literals := 257 + (← bits 5)
  let distances := 1 + (← bits 5)
  let count := 4 + (← bits 4)
  let lengths ← metaLengths (lengthOrder.take count) (Array.replicate 19 0)
  let lengths ← codeLengths (.ofLengths lengths) (literals + distances)
    (literals + distances + 1) #[]
  return (.ofLengths (lengths.extract 0 literals), .ofLengths (lengths.extract literals lengths.size))

/-- Append `n` bytes that are stored as they are. -/
def storedBytes : Nat → Step Unit
  | 0 => return
  | n + 1 => do
    emit (← bits 8).toUInt8
    storedBytes n

/-- A block of stored bytes, which starts at a whole byte and tells its length
twice. -/
def storedBlock : Step Unit := do
  modify fun s => { s with position := (s.position + 7) / 8 * 8 }
  let length ← bits 16
  let check ← bits 16
  if length + check ≠ 0xFFFF then throw .corrupt
  storedBytes length

/-- All blocks from here on. -/
def blocks : Nat → Step Unit
  | 0 => throw .endOfData
  | fuel + 1 => do
    let last ← bit
    let kind ← bits 2
    match kind with
    | 0 => storedBlock
    | 1 => codedBlock fixedLiterals fixedDistances (fuel + 1)
    | 2 =>
      let (literals, distances) ← dynamicCodes
      codedBlock literals distances (fuel + 1)
    | _ => throw .corrupt
    if last = 1 then return else blocks fuel

/-- The two bytes in front of the blocks: the method, and a checked header
without a dictionary. -/
def header : Step Unit := do
  let method ← bits 8
  let flags ← bits 8
  if method % 16 ≠ 8 ∨ 7 < method / 16 ∨ (method * 256 + flags) % 31 ≠ 0 ∨ flags / 32 % 2 = 1 then
    throw .corrupt

/-- What comes out of the data, and why it is not all if it is not. -/
def inflate (data : Array UInt8) : Array UInt8 × Option Stop :=
  let steps : Step Unit := do
    header
    blocks (8 * data.size + 1)
  match steps.run data ⟨0, #[]⟩ with
  | .ok _ s => (s.out, none)
  | .error e s => (s.out, some e)

end Receipt.Inflate
