/-
What can be wrong with JSON.

A text may not be JSON at all, or stop before it is complete; and a value, though
well formed, may not be of the shape that is asked for.  The three are told apart
by `JsonError.category`.
-/
import Receipt.Json.Value
import Receipt.Text.Quoted

namespace Receipt

namespace Json

/-- Why a text is not JSON. -/
inductive SyntaxError where
  | expectedValue
  | expectedIdent
  | expectedColon
  | expectedListCommaOrEnd
  | expectedObjectCommaOrEnd
  | trailingComma
  | trailingCharacters
  | keyMustBeString
  | invalidNumber
  | numberOutOfRange
  | invalidEscape
  | unexpectedEndOfHexEscape
  | loneSurrogate
  | controlCharacter
  | recursionLimit
  | endInValue
  | endInString
  | endInList
  | endInObject
  deriving DecidableEq, Repr

/-- Whether the text ended too early, as opposed to going on wrongly. -/
def SyntaxError.isEnd : SyntaxError → Bool
  | .endInValue | .endInString | .endInList | .endInObject => true
  | _ => false

def SyntaxError.message : SyntaxError → String
  | .expectedValue => "expected value"
  | .expectedIdent => "expected ident"
  | .expectedColon => "expected `:`"
  | .expectedListCommaOrEnd => "expected `,` or `]`"
  | .expectedObjectCommaOrEnd => "expected `,` or `\x7d`"
  | .trailingComma => "trailing comma"
  | .trailingCharacters => "trailing characters"
  | .keyMustBeString => "key must be a string"
  | .invalidNumber => "invalid number"
  | .numberOutOfRange => "number out of range"
  | .invalidEscape => "invalid escape"
  | .unexpectedEndOfHexEscape => "unexpected end of hex escape"
  | .loneSurrogate => "lone leading surrogate in hex escape"
  | .controlCharacter => "control character (\\u0000-\\u001F) found while parsing a string"
  | .recursionLimit => "recursion limit exceeded"
  | .endInValue => "EOF while parsing a value"
  | .endInString => "EOF while parsing a string"
  | .endInList => "EOF while parsing a list"
  | .endInObject => "EOF while parsing an object"

/-- What stands where something else was asked for. -/
inductive Found where
  | null
  | bool (b : Bool)
  | number (n : Number)
  | string (s : String)
  | sequence
  | map

/-- How a found value is named in a message. -/
def Found.describe : Found → String
  | .null => "null"
  | .bool b => "boolean `" ++ (if b then "true" else "false") ++ "`"
  | .number (.int n) => "integer `" ++ (Number.int n).text ++ "`"
  | .number (.double x) => "floating point `" ++ (Number.double x).text ++ "`"
  | .string s => "string " ++ Text.quoted s
  | .sequence => "sequence"
  | .map => "map"

/-- Why a well formed value is not of the shape that is asked for. -/
inductive DataError where
  | invalidType (found : Found) (expected : String)
  | invalidValue (found : Found) (expected : String)
  | invalidLength (length : Nat) (expected : String)
  | missingField (name : String)
  | duplicateField (name : String)
  | unknownVariant (name : String) (known : List String)
  | noVariantMatches (name : String)
  /-- A value of the right shape whose content was refused, in its own words. -/
  | refused (reason : String)

/-- A name between backquotes. -/
def ticked (s : String) : String :=
  "`" ++ s ++ "`"

def DataError.message : DataError → String
  | .invalidType found expected => "invalid type: " ++ found.describe ++ ", expected " ++ expected
  | .invalidValue found expected =>
    "invalid value: " ++ found.describe ++ ", expected " ++ expected
  | .invalidLength length expected =>
    "invalid length " ++ Nat.repr length ++ ", expected " ++ expected
  | .missingField name => "missing field " ++ ticked name
  | .duplicateField name => "duplicate field " ++ ticked name
  | .unknownVariant name known =>
    "unknown variant " ++ ticked name ++ ", expected one of " ++
      String.intercalate ", " (known.map ticked)
  | .noVariantMatches name => "data did not match any variant of untagged enum " ++ name
  | .refused reason => reason

end Json

/-- What can be wrong with JSON that is read. -/
inductive JsonError where
  | syntactic (e : Json.SyntaxError)
  | data (e : Json.DataError)

/-- The kind of an error: `syntax`, `eof` or `data`. -/
def JsonError.category : JsonError → String
  | .syntactic e => if e.isEnd then "eof" else "syntax"
  | .data _ => "data"

def JsonError.message : JsonError → String
  | .syntactic e => e.message
  | .data e => e.message

end Receipt
