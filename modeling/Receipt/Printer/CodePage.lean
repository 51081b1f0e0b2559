/-
Single byte code pages.

The lower half of every page is ASCII, and the upper half holds 128 more
characters at the bytes 0x80 to 0xFF.  A character that is on neither half is
printed as a question mark, so every character takes exactly one byte.
-/
import Receipt.Text.Blank

namespace Receipt

/-- The code pages that printers are told to use. -/
inductive CodePage where
  | cp437
  | cp850
  | cp860
  deriving DecidableEq, Repr

namespace CodePage

/-- The page for text that asks for none: the Portuguese one. -/
def default : CodePage := .cp860

instance : Inhabited CodePage := ⟨default⟩

/-- The characters at 0x80 to 0xAF for English. -/
def accents437 : String :=
  "ÇüéâäàåçêëèïîìÄÅ" ++
  "ÉæÆôöòûùÿÖÜ¢£¥₧ƒ" ++
  "áíóúñÑªº¿⌐¬½¼¡«»"

/-- The characters at 0x80 to 0xAF for Portuguese. -/
def accents860 : String :=
  "ÇüéâãàÁçêÊèÍÔìÃÂ" ++
  "ÉÀÈôõòÚùÌÕÜ¢£Ù₧Ó" ++
  "áíóúñÑªº¿Ò¬½¼¡«»"

/-- The characters at 0xB0 to 0xFF that both share: shades, lines, Greek and
mathematics. -/
def drawing : String :=
  "░▒▓│┤╡╢╖╕╣║╗╝╜╛┐" ++
  "└┴┬├─┼╞╟╚╔╩╦╠═╬╧" ++
  "╨╤╥╙╘╒╓╫╪┘┌█▄▌▐▀" ++
  "αßΓπΣσµτΦΘΩδ∞φε∩" ++
  "≡±≥≤⌠⌡÷≈°∙·√ⁿ²■\u00A0"

/-- The characters at 0x80 to 0xFF for Western Europe. -/
def western : String :=
  "ÇüéâäàåçêëèïîìÄÅ" ++
  "ÉæÆôöòûùÿÖÜø£Ø×ƒ" ++
  "áíóúñÑªº¿®¬½¼¡«»" ++
  "░▒▓│┤ÁÂÀ©╣║╗╝¢¥┐" ++
  "└┴┬├─┼ãÃ╚╔╩╦╠═╬¤" ++
  "ðÐÊËÈıÍÎÏ┘┌█▄¦Ì▀" ++
  "ÓßÔÒõÕµþÞÚÛÙýÝ¯´" ++
  "\u00AD±‗¾¶§÷¸°¨·¹³²■\u00A0"

/-- The upper half of a page, from 0x80 on. -/
def upperHalf : CodePage → List Char
  | .cp437 => (accents437 ++ drawing).toList
  | .cp850 => western.toList
  | .cp860 => (accents860 ++ drawing).toList

/-- The byte of a character that is on no page: a question mark. -/
def substitute : UInt8 := 0x3F

/-- The byte of a character. -/
def byteOf (page : CodePage) (c : Char) : UInt8 :=
  if c.toNat < 0x80 then c.toNat.toUInt8
  else
    match page.upperHalf.idxOf? c with
    | some i => (0x80 + i).toUInt8
    | none => substitute

/-- The bytes of a text. -/
def encode (page : CodePage) (s : String) : List UInt8 :=
  s.toList.map page.byteOf

/-- The name of a page. -/
def name : CodePage → String
  | .cp437 => "cp437"
  | .cp850 => "cp850"
  | .cp860 => "cp860"

/-- The number that a printer of the ESC/POS family knows the page by. -/
def tableNumber : CodePage → UInt8
  | .cp437 => 0
  | .cp850 => 2
  | .cp860 => 3

/-- The page of a name.  Letters and hyphens in front of the number say nothing:
`cp860`, `IBM-860` and `860` are one page. -/
def ofName? (name : String) : Option CodePage :=
  let digits := (Text.nameKey name).toList.dropWhile fun c => c.isAlpha || c == '-'
  if digits == ['4', '3', '7'] then some .cp437
  else if digits == ['8', '5', '0'] then some .cp850
  else if digits == ['8', '6', '0'] then some .cp860
  else none

/-- The page of a name, or the default page for a name of none. -/
def ofName (name : String) : CodePage :=
  (ofName? name).getD default

end CodePage

end Receipt
