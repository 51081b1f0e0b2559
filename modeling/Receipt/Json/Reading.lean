/-
A JSON text as far as it can be read.

Whoever asks for a value of some shape meets the parts of a text in the order in
which they stand, and the first thing wrong decides: a value of the wrong shape,
or the place where the text stops being JSON.  So a text is first laid out as a
`Reading`, a tree in which the break is a leaf like any other, and the shapes are
then read off that tree.

Two readers can meet a break.  One wants the value; one only wants to get past
it, because nobody asked for the key it stands under.  The second looks less
closely: it pairs no surrogates, computes no number and sees a comma too many
from the other side.  So a break says what each of them would report.
-/
import Receipt.Decimal.Parse
import Receipt.Json.Error

namespace Receipt.Json

/-- A break inside a value, as its reader and as one who skips it report it. -/
structure Fault where
  whenRead : SyntaxError
  whenSkipped : SyntaxError

/-- A break that both report alike. -/
def Fault.plain (e : SyntaxError) : Fault :=
  ⟨e, e⟩

/-- What stands in a list where a comma or the end should be. -/
inductive ListBreak where
  | missingComma
  | trailingComma
  | endOfText
  | endAfterComma

/-- The report of whoever reads the list to its end. -/
def ListBreak.whenRead : ListBreak → SyntaxError
  | .missingComma => .expectedListCommaOrEnd
  | .trailingComma => .trailingComma
  | .endOfText => .endInList
  | .endAfterComma => .endInValue

/-- The report of whoever skips the list. -/
def ListBreak.whenSkipped : ListBreak → SyntaxError
  | .missingComma => .expectedListCommaOrEnd
  | .trailingComma => .expectedValue
  | .endOfText => .endInList
  | .endAfterComma => .endInValue

/-- The report of whoever has all the items it wants and looks for the end. -/
def ListBreak.whenFull : ListBreak → SyntaxError
  | .missingComma => .trailingCharacters
  | .trailingComma => .trailingComma
  | .endOfText => .endInList
  | .endAfterComma => .trailingCharacters

/-- What stands in an object where a comma, a key or the end should be. -/
inductive MemberBreak where
  | missingComma
  | trailingComma
  | missingKey
  | endOfText
  | endAfterComma
  | brokenKey (fault : Fault)

/-- The report of whoever reads the object. -/
def MemberBreak.whenRead : MemberBreak → SyntaxError
  | .missingComma => .expectedObjectCommaOrEnd
  | .trailingComma => .trailingComma
  | .missingKey => .keyMustBeString
  | .endOfText => .endInObject
  | .endAfterComma => .endInValue
  | .brokenKey fault => fault.whenRead

/-- The report of whoever skips the object. -/
def MemberBreak.whenSkipped : MemberBreak → SyntaxError
  | .missingComma => .expectedObjectCommaOrEnd
  | .trailingComma => .keyMustBeString
  | .missingKey => .keyMustBeString
  | .endOfText => .endInObject
  | .endAfterComma => .endInObject
  | .brokenKey fault => fault.whenSkipped

mutual

/-- A value as far as it can be read. -/
inductive Reading where
  | null
  | bool (b : Bool)
  /-- A number, or why a well formed number has no value. -/
  | number (n : Except SyntaxError Number)
  /-- A text, or why a well delimited text has no characters. -/
  | string (s : Except SyntaxError String)
  | array (items : Items)
  | object (members : Members)
  /-- No value begins here, or a text is not closed. -/
  | broken (fault : Fault)
  /-- Something begins here that is no word, number or other value. -/
  | garbled (fault : Fault)

/-- The items of a list as far as they can be read. -/
inductive Items where
  | done
  | broken (cause : ListBreak)
  | next (first : Reading) (rest : Items)

/-- The members of an object as far as they can be read. -/
inductive Members where
  | done
  | broken (cause : MemberBreak)
  /-- Something else than a key stands right after the opening brace. -/
  | unkeyed (found : Reading)
  | next (key : Except SyntaxError String) (value : Reading) (rest : Members)

end

/-! ### Tokens -/

/-- The text after the blanks of JSON, of which there are four. -/
def skipBlanks (cs : List Char) : List Char :=
  cs.dropWhile fun c => c == ' ' || c == '\n' || c == '\t' || c == '\r'

/-- The text after the letters of a word. -/
def afterWord : List Char → List Char → Except SyntaxError (List Char)
  | [], cs => .ok cs
  | _ :: _, [] => .error .endInValue
  | w :: word, c :: cs => if w = c then afterWord word cs else .error .expectedIdent

/-- The value of a hexadecimal digit. -/
def hexDigit? (c : Char) : Option Nat :=
  if c.isDigit then some (c.toNat - '0'.toNat)
  else if 'a' ≤ c ∧ c ≤ 'f' then some (c.toNat - 'a'.toNat + 10)
  else if 'A' ≤ c ∧ c ≤ 'F' then some (c.toNat - 'A'.toNat + 10)
  else none

/-- How many bytes the first four characters take, at most. -/
def leadingBytes (cs : List Char) : Nat :=
  (cs.take 4).foldl (fun n c => n + c.utf8Size) 0

/-- The four hexadecimal digits of an escape and the text after them. -/
def hexEscape (cs : List Char) : Except SyntaxError (Nat × List Char) :=
  match cs with
  | a :: b :: c :: d :: rest =>
    match hexDigit? a, hexDigit? b, hexDigit? c, hexDigit? d with
    | some a, some b, some c, some d => .ok (((a * 16 + b) * 16 + c) * 16 + d, rest)
    | _, _, _, _ => .error .invalidEscape
  | cs => .error (if leadingBytes cs < 4 then .endInString else .invalidEscape)

/-- The character that a one letter escape stands for. -/
def letterEscape? : Char → Option Char
  | '"' => some '"'
  | '\\' => some '\\'
  | '/' => some '/'
  | 'b' => some '\x08'
  | 'f' => some '\x0c'
  | 'n' => some '\n'
  | 'r' => some '\r'
  | 't' => some '\t'
  | _ => none

/-- What has been read of a text: its characters, the last one first, until the
first escape that stands for none. -/
abbrev Scanned := Except SyntaxError (List Char)

def Scanned.push (s : Scanned) (c : Char) : Scanned :=
  s.map (c :: ·)

/-- An escape that stands for no character; the first one counts. -/
def Scanned.refuse (s : Scanned) (e : SyntaxError) : Scanned :=
  match s with
  | .ok _ => .error e
  | .error first => .error first

/-- The report of a text that breaks off. -/
def Scanned.breakOff (s : Scanned) (e : SyntaxError) : Fault :=
  match s with
  | .ok _ => .plain e
  | .error first => ⟨first, e⟩

def isHighSurrogate (n : Nat) : Bool := 0xD800 ≤ n && n ≤ 0xDBFF

def isLowSurrogate (n : Nat) : Bool := 0xDC00 ≤ n && n ≤ 0xDFFF

/-- The rest of a text behind its opening quote: its characters and what follows
the closing quote.  The fuel is the number of characters left. -/
def scanString : Nat → Scanned → List Char → Except Fault (Scanned × List Char)
  | 0, s, _ => .error (s.breakOff .endInString)
  | _ + 1, s, [] => .error (s.breakOff .endInString)
  | _ + 1, s, '"' :: rest => .ok (s, rest)
  | fuel + 1, s, '\\' :: rest =>
    match rest with
    | [] => .error (s.breakOff .endInString)
    | 'u' :: rest =>
      match hexEscape rest with
      | .error e => .error (s.breakOff e)
      | .ok (n, rest) =>
        if isLowSurrogate n then scanString fuel (s.refuse .loneSurrogate) rest
        else if !isHighSurrogate n then scanString fuel (s.push (Char.ofNat n)) rest
        else
          match rest with
          | '\\' :: 'u' :: more =>
            match hexEscape more with
            | .error e => .error (s.breakOff e)
            | .ok (low, more) =>
              if isLowSurrogate low then
                let code := 0x10000 + (n - 0xD800) * 0x400 + (low - 0xDC00)
                scanString fuel (s.push (Char.ofNat code)) more
              else scanString fuel (s.refuse .loneSurrogate) more
          | [] => .error (s.breakOff .endInString)
          | ['\\'] => .error (s.breakOff .endInString)
          | rest => scanString fuel (s.refuse .unexpectedEndOfHexEscape) rest
    | c :: rest =>
      match letterEscape? c with
      | some c => scanString fuel (s.push c) rest
      | none => .error (s.breakOff .invalidEscape)
  | fuel + 1, s, c :: rest =>
    if c.toNat < 0x20 then .error (s.breakOff .controlCharacter)
    else scanString fuel (s.push c) rest

/-- The characters of a scanned text in their order. -/
def Scanned.text (s : Scanned) : Except SyntaxError String :=
  s.map fun cs => String.ofList cs.reverse

/-- A number that is given by its digits: an integer where 64 bits hold it, and a
double everywhere else, also for a zero with a minus. -/
def integer (negative : Bool) (n : Nat) : Except SyntaxError Number :=
  if negative then
    if n = 0 then .ok (.double (-0.0))
    else if n ≤ UInt64.size / 2 then .ok (.int (-n))
    else fromDouble (-(Decimal.toFloat n 0))
  else if n < UInt64.size then .ok (.int n)
  else fromDouble (Decimal.toFloat n 0)
where
  fromDouble (x : Float) : Except SyntaxError Number :=
    if x.isInf then .error .numberOutOfRange else .ok (.double x)

/-- The break of a number at a place where a digit should be. -/
def missingDigit (rest : List Char) : Fault :=
  ⟨if rest.isEmpty then .endInValue else .invalidNumber, .invalidNumber⟩

/-- The digits behind a point, if there is one. -/
def scanFraction (cs : List Char) : Except Fault (Option (List Char) × List Char) :=
  match cs with
  | '.' :: rest =>
    let (digits, rest) := Decimal.takeDigits rest
    if digits.isEmpty then .error (missingDigit rest) else .ok (some digits, rest)
  | rest => .ok (none, rest)

/-- The exponent, if there is one. -/
def scanExponent (cs : List Char) : Except Fault (Option Int × List Char) :=
  match cs with
  | c :: rest =>
    if c == 'e' || c == 'E' then
      let (negative, rest) := Decimal.takeSign rest
      let (digits, rest) := Decimal.takeDigits rest
      if digits.isEmpty then .error (missingDigit rest)
      else
        let n : Int := Decimal.digitsValue digits
        .ok (some (if negative then -n else n), rest)
    else .ok (none, cs)
  | [] => .ok (none, [])

/-- A number token and the text after it. -/
def scanNumber (cs : List Char) : Except Fault (Except SyntaxError Number × List Char) := do
  let (negative, cs) := match cs with
    | '-' :: rest => (true, rest)
    | cs => (false, cs)
  let (whole, rest) := Decimal.takeDigits cs
  match whole with
  | [] => .error (missingDigit rest)
  | '0' :: _ :: _ => .error (.plain .invalidNumber)
  | whole =>
    let (fraction, rest) ← scanFraction rest
    let (exponent, rest) ← scanExponent rest
    match fraction, exponent with
    | none, none => .ok (integer negative (Decimal.digitsValue whole), rest)
    | fraction, exponent =>
      let part := fraction.getD []
      let x := Decimal.toFloat (Decimal.digitsValue (whole ++ part))
        (exponent.getD 0 - part.length)
      .ok (integer.fromDouble (if negative then -x else x), rest)

/-! ### Values -/

mutual

/-- The value at the front of a text, and the text after it unless the value
breaks off.  Every call takes one of the fuel, and of three calls inside each
other at least one takes a character. -/
def readValue : Nat → List Char → Reading × Option (List Char)
  | 0, _ => (.broken (.plain .endInValue), none)
  | fuel + 1, cs =>
    match skipBlanks cs with
    | [] => (.broken (.plain .endInValue), none)
    | '"' :: rest =>
      match scanString (rest.length + 1) (.ok []) rest with
      | .ok (s, rest) => (.string s.text, some rest)
      | .error fault => (.broken fault, none)
    | '[' :: rest =>
      let (items, rest) := readItems fuel true rest
      (.array items, rest)
    | '{' :: rest =>
      let (members, rest) := readMembers fuel true rest
      (.object members, rest)
    | 'n' :: rest => word .null ['u', 'l', 'l'] rest
    | 't' :: rest => word (.bool true) ['r', 'u', 'e'] rest
    | 'f' :: rest => word (.bool false) ['a', 'l', 's', 'e'] rest
    | c :: rest =>
      if c == '-' || c.isDigit then
        match scanNumber (c :: rest) with
        | .ok (n, rest) => (.number n, some rest)
        | .error fault => (.garbled fault, none)
      else (.garbled (.plain .expectedValue), none)
where
  /-- A value that is written as a word. -/
  word (value : Reading) (letters rest : List Char) : Reading × Option (List Char) :=
    match afterWord letters rest with
    | .ok rest => (value, some rest)
    | .error e => (.garbled (.plain e), none)

/-- The items of a list behind its bracket, or behind an item. -/
def readItems : Nat → Bool → List Char → Items × Option (List Char)
  | 0, _, _ => (.broken .endOfText, none)
  | fuel + 1, first, cs =>
    match skipBlanks cs with
    | [] => (.broken .endOfText, none)
    | ']' :: rest => (.done, some rest)
    | c :: rest =>
      if first then readItem fuel (c :: rest)
      else if c == ',' then
        match skipBlanks rest with
        | [] => (.broken .endAfterComma, none)
        | ']' :: _ => (.broken .trailingComma, none)
        | rest => readItem fuel rest
      else (.broken .missingComma, none)

/-- One item and those after it. -/
def readItem : Nat → List Char → Items × Option (List Char)
  | 0, _ => (.broken .endOfText, none)
  | fuel + 1, cs =>
    match readValue fuel cs with
    | (value, none) => (.next value .done, none)
    | (value, some rest) =>
      let (more, rest) := readItems fuel false rest
      (.next value more, rest)

/-- The members of an object behind its brace, or behind a member. -/
def readMembers : Nat → Bool → List Char → Members × Option (List Char)
  | 0, _, _ => (.broken .endOfText, none)
  | fuel + 1, first, cs =>
    match skipBlanks cs with
    | [] => (.broken .endOfText, none)
    | '}' :: rest => (.done, some rest)
    | c :: rest =>
      if first then
        if c == '"' then readMember fuel rest
        else (.unkeyed (readValue fuel (c :: rest)).1, none)
      else if c == ',' then
        match skipBlanks rest with
        | [] => (.broken .endAfterComma, none)
        | '"' :: rest => readMember fuel rest
        | '}' :: _ => (.broken .trailingComma, none)
        | _ => (.broken .missingKey, none)
      else (.broken .missingComma, none)

/-- One member, from behind the quote that opens its key, and those after it. -/
def readMember : Nat → List Char → Members × Option (List Char)
  | 0, _ => (.broken .endOfText, none)
  | fuel + 1, cs =>
    match scanString (cs.length + 1) (.ok []) cs with
    | .error fault => (.broken (.brokenKey fault), none)
    | .ok (key, rest) =>
      match skipBlanks rest with
      | [] => (.next key.text (.broken (.plain .endInObject)) .done, none)
      | ':' :: rest =>
        match readValue fuel rest with
        | (value, none) => (.next key.text value .done, none)
        | (value, some rest) =>
          let (more, rest) := readMembers fuel false rest
          (.next key.text value more, rest)
      | _ => (.next key.text (.broken (.plain .expectedColon)) .done, none)

end

/-- The value at the front of a text, and the text after it. -/
def Reading.ofText (s : String) : Reading × Option (List Char) :=
  readValue (3 * s.length + 4) s.toList

/-! ### Values that are there already -/

mutual

/-- A value as a reading in which nothing is broken. -/
def reading : Json → Reading
  | .null => .null
  | .bool b => .bool b
  | .number n => .number (.ok n)
  | .string s => .string (.ok s)
  | .array items => .array (readingItems items)
  | .object members => .object (readingMembers members)

def readingItems : List Json → Items
  | [] => .done
  | item :: rest => .next item.reading (readingItems rest)

def readingMembers : List (String × Json) → Members
  | [] => .done
  | (key, value) :: rest => .next (.ok key) value.reading (readingMembers rest)

end

end Receipt.Json
