/-
Blank characters, and what goes by them: trimming, words, paragraphs.

Blank means the Unicode property White_Space, which is wider than the blanks of
ASCII.  Case, on the other hand, is folded for the letters of ASCII alone: the
names this library looks up are ASCII, so a wider fold could only confuse two
names that are not one.
-/
namespace Receipt.Text

/-- The characters with the Unicode property White_Space. -/
def isBlank (c : Char) : Bool :=
  let n := c.toNat
  (9 ≤ n && n ≤ 13) || n == 0x20 || n == 0x85 || n == 0xA0 || n == 0x1680 ||
    (0x2000 ≤ n && n ≤ 0x200A) || n == 0x2028 || n == 0x2029 || n == 0x202F ||
    n == 0x205F || n == 0x3000

/-- The blank that layout writes is one of the blanks that layout drops. -/
theorem isBlank_space : isBlank ' ' = true := rfl

/-- The characters without the blanks at either end. -/
def trimChars (cs : List Char) : List Char :=
  ((cs.dropWhile isBlank).reverse.dropWhile isBlank).reverse

/-- The text without the blanks at either end. -/
def trim (s : String) : String :=
  String.ofList (trimChars s.toList)

/-- The text with the capital letters of ASCII made small. -/
def lower (s : String) : String :=
  String.ofList (s.toList.map Char.toLower)

/-- How names are compared: without the blanks around them and without case. -/
def nameKey (s : String) : String :=
  lower (trim s)

/-- The longest runs of characters that are not blank, in order. -/
def words (cs : List Char) : List (List Char) :=
  (cs.splitOnP isBlank).filter fun w => !w.isEmpty

/-- The text between newlines.  A text without a newline is one paragraph, also
when it is empty. -/
def paragraphs (cs : List Char) : List (List Char) :=
  cs.splitOn '\n'

end Receipt.Text
