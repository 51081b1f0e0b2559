/-
Reading values of a given shape.

A shape is read off a `Reading` part by part, in the order of the text.  Values
come from a text or are there already, and the two differ in a few things only:
a text may be nested no deeper than 127 levels and repeat its keys, a list that
is too long shows in a text as characters that should not follow, and so does an
enumeration that is not written as one.  A value that is there already is taken
as it is.
-/
import Receipt.Json.Reading

namespace Receipt.Json

/-- Where a value comes from.  Inside a text the number of levels that may still
be entered is one less than the number kept. -/
inductive Origin where
  | value
  | text (levels : Nat)

/-- The origin of what is read from the start of a text. -/
def Origin.start : Origin :=
  .text 128

/-- The origin one level deeper. -/
def Origin.enter : Origin → Except JsonError Origin
  | .value => .ok .value
  | .text (levels + 2) => .ok (.text (levels + 1))
  | .text _ => .error (.syntactic .recursionLimit)

/-- A part of a text that may have no value. -/
def scanned {α : Type} (x : Except SyntaxError α) : Except JsonError α :=
  x.mapError .syntactic

/-! ### Values that nobody asked for -/

mutual

/-- The first break that a skipped value meets. -/
def Reading.skip : Reading → Except JsonError Unit
  | .array items => items.skip
  | .object members => members.skip
  | .broken fault | .garbled fault => .error (.syntactic fault.whenSkipped)
  | _ => .ok ()

/-- The first break that a skipped list meets. -/
def Items.skip : Items → Except JsonError Unit
  | .done => .ok ()
  | .broken cause => .error (.syntactic cause.whenSkipped)
  | .next first rest => do
    first.skip
    rest.skip

/-- The first break that a skipped object meets. -/
def Members.skip : Members → Except JsonError Unit
  | .done => .ok ()
  | .broken cause => .error (.syntactic cause.whenSkipped)
  | .unkeyed _ => .error (.syntactic .keyMustBeString)
  | .next _ value rest => do
    value.skip
    rest.skip

end

/-! ### Values of any shape -/

/-- The object of the members that were read.  Those of a value are in order
already; of those of a text the last one of each key counts. -/
def Origin.object (o : Origin) (entries : List (String × Json)) : Json :=
  match o with
  | .value => .object entries
  | .text _ => .ofDict (Dict.ofList entries)

mutual

/-- A value of any shape. -/
def Reading.any (o : Origin) : Reading → Except JsonError Json
  | .null => .ok .null
  | .bool b => .ok (.bool b)
  | .number n => (scanned n).map .number
  | .string s => (scanned s).map .string
  | .array items => do
    let items ← items.any (← o.enter)
    return .array items
  | .object members => do
    let entries ← members.any (← o.enter)
    return o.object entries
  | .broken fault | .garbled fault => .error (.syntactic fault.whenRead)

/-- Items of any shape. -/
def Items.any (o : Origin) : Items → Except JsonError (List Json)
  | .done => .ok []
  | .broken cause => .error (.syntactic cause.whenRead)
  | .next first rest => do
    let first ← first.any o
    let rest ← rest.any o
    return first :: rest

/-- Members of any shape, in the order of the text. -/
def Members.any (o : Origin) : Members → Except JsonError (List (String × Json))
  | .done => .ok []
  | .broken cause => .error (.syntactic cause.whenRead)
  | .unkeyed _ => .error (.syntactic .keyMustBeString)
  | .next key value rest => do
    let key ← scanned key
    let value ← value.any o
    let rest ← rest.any o
    return (key, value) :: rest

end

/-! ### Values of one shape -/

/-- What a value of the wrong shape is called, or where it breaks. -/
def Reading.found : Reading → Except JsonError Found
  | .null => .ok .null
  | .bool b => .ok (.bool b)
  | .number n => (scanned n).map .number
  | .string s => (scanned s).map .string
  | .array _ => .ok .sequence
  | .object _ => .ok .map
  | .broken fault | .garbled fault => .error (.syntactic fault.whenRead)

/-- The report of a value of the wrong shape. -/
def Reading.mismatch {α : Type} (r : Reading) (expected : String) : Except JsonError α := do
  throw (.data (.invalidType (← r.found) expected))

def Reading.asString : Reading → Except JsonError String
  | .string s => scanned s
  | r => r.mismatch "a string"

def Reading.asBool : Reading → Except JsonError Bool
  | .bool b => .ok b
  | r => r.mismatch "a boolean"

/-- A natural number.  A double does not count as one, whole or not. -/
def Reading.asNat : Reading → Except JsonError Nat
  | .number n => do
    match ← scanned n with
    | .int n =>
      if 0 ≤ n then return n.toNat
      else throw (.data (.invalidValue (.number (.int n)) "usize"))
    | .double x => throw (.data (.invalidType (.number (.double x)) "usize"))
  | r => r.mismatch "usize"

def Reading.asUnit : Reading → Except JsonError Unit
  | .null => .ok ()
  | r => r.mismatch "unit"

/-- An object with values of any shape. -/
def Reading.asDict (o : Origin) : Reading → Except JsonError (Dict Json)
  | .object members => do
    let entries ← members.any (← o.enter)
    return Dict.ofList entries
  | r => r.mismatch "a map"

def Items.count : Items → Nat
  | .next _ rest => rest.count + 1
  | _ => 0

/-- What follows the last item that is wanted, of which there were `taken`. -/
def Items.close (o : Origin) (taken : Nat) : Items → Except JsonError Unit
  | .done => .ok ()
  | .broken cause => .error (.syntactic cause.whenFull)
  | .next _ rest =>
    match o with
    | .text _ => .error (.syntactic .trailingCharacters)
    | .value =>
      .error (.data (.invalidLength (taken + 1 + rest.count) "fewer elements in array"))

/-- One of the names of an enumeration. -/
def variant {α : Type} (known : List (String × α)) (name : String) : Except JsonError α :=
  match known.lookup name with
  | some v => .ok v
  | none => .error (.data (.unknownVariant name (known.map Prod.fst)))

/-- What follows, in a text, the one member of an enumeration that is written as
an object. -/
def Members.closeVariant : Members → Except JsonError Unit
  | .done => .ok ()
  | .broken .endOfText => .error (.syntactic .endInObject)
  | _ => .error (.syntactic .expectedValue)

/-- An enumeration of names: one of them as a text, or as the only key of an
object, with nothing under it. -/
def Reading.asVariant {α : Type} (o : Origin) (known : List (String × α)) (r : Reading) :
    Except JsonError α :=
  match o, r with
  | _, .string s => do variant known (← scanned s)
  | .value, .object members =>
    match members with
    | .next key value .done => do
      let v ← variant known (← scanned key)
      value.asUnit
      return v
    | _ => .error (.data (.invalidValue .map "map with a single key"))
  | .value, r => r.mismatch "string or map"
  | .text _, .object members => do
    let _ ← o.enter
    match members with
    | .done => .error (.syntactic .expectedValue)
    | .broken .endOfText => .error (.syntactic .endInValue)
    | .broken cause => .error (.syntactic cause.whenRead)
    | .unkeyed found => found.mismatch "variant identifier"
    | .next key value rest => do
      let v ← variant known (← scanned key)
      value.asUnit
      rest.closeVariant
      return v
  | .text _, .broken fault => .error (.syntactic fault.whenRead)
  | .text _, _ => .error (.syntactic .expectedValue)

/-! ### Whole values and whole texts -/

/-- A shape read from a value that is there already. -/
def ofValue {α : Type} (shape : Origin → Reading → Except JsonError α) (v : Json) :
    Except JsonError α :=
  shape .value v.reading

/-- A shape read from a text, which may hold nothing else. -/
def ofText {α : Type} (shape : Origin → Reading → Except JsonError α) (s : String) :
    Except JsonError α := do
  let (r, rest) := Reading.ofText s
  let x ← shape .start r
  match rest.map skipBlanks with
  | some (_ :: _) => throw (.syntactic .trailingCharacters)
  | _ => return x

def parse (s : String) : Except JsonError Json :=
  ofText (fun o r => r.any o) s

end Receipt.Json
