/-
What the attributes of a style mean on paper.

Nothing here fails.  An attribute that cannot be understood means what a missing
one means, and the formatting around the node goes on.
-/
import Receipt.Document.Style
import Receipt.Printer.Format

namespace Receipt

/-! ### Text -/

def Alignment.ofName? (name : String) : Option Alignment :=
  [("left", .left), ("start", .left), ("center", .center), ("right", .right),
    ("end", .right)].lookup (Text.nameKey name)

/-- The character size for a font size in points. -/
def CharacterSize.ofFontSize? (points : Float) : Option CharacterSize :=
  if !points.isFinite || points <= 0.0 then none
  else if points >= 25.0 then some ⟨2, 2⟩
  else if points >= 19.0 then some ⟨2, 1⟩
  else if points >= 13.0 then some ⟨1, 2⟩
  else some .normal

/-- Whether a numeric weight is bold.  Weights start at 100. -/
def boldOfWeight? (weight : Float) : Option Bool :=
  if weight.isFinite && weight >= 100.0 then some (weight >= 700.0) else none

/-- Whether a font weight, by name or by number, is bold. -/
def bold? : Json → Option Bool
  | .string s =>
    let key := Text.nameKey s
    if key == "bold" || key == "bolder" then some true
    else if key == "normal" || key == "lighter" then some false
    else (Decimal.parse? key).bind boldOfWeight?
  | .number n => boldOfWeight? n.toFloat
  | _ => none

/-- The formatting that a style asks for.  What it leaves open is inherited. -/
structure TextStyle where
  align : Option Alignment
  size : Option CharacterSize
  bold : Option Bool
  deriving DecidableEq, Repr

def Style.text (s : Style) : TextStyle :=
  { align := (s.string? "textAlign").bind Alignment.ofName?
    size := (s.number? "fontSize").bind CharacterSize.ofFontSize?
    bold := (s.get? "fontWeight").bind bold? }

/-- The formatting with what a style asks for in place of it. -/
def Format.withStyle (f : Format) (s : Style) : Format :=
  let t := s.text
  ⟨t.align.getD f.align, t.size.getD f.size, t.bold.getD f.bold⟩

/-! ### Containers -/

/-- How the columns of a row share its width. -/
inductive Justify where
  | flexStart
  | flexEnd
  | center
  | spaceBetween
  | spaceAround
  | spaceEvenly
  deriving DecidableEq, Repr

namespace Justify

def ofName? (name : String) : Option Justify :=
  [("flex-start", .flexStart), ("start", .flexStart), ("flex-end", .flexEnd),
    ("end", .flexEnd), ("center", .center), ("space-between", .spaceBetween),
    ("space-around", .spaceAround), ("space-evenly", .spaceEvenly)].lookup (Text.nameKey name)

def name : Justify → String
  | .flexStart => "flex-start"
  | .flexEnd => "flex-end"
  | .center => "center"
  | .spaceBetween => "space-between"
  | .spaceAround => "space-around"
  | .spaceEvenly => "space-evenly"

end Justify

/-- The layout that a style asks for. -/
structure ViewStyle where
  align : Option Alignment
  isRow : Bool
  justify : Option Justify
  deriving DecidableEq, Repr

def Style.view (s : Style) : ViewStyle :=
  { align := (s.string? "textAlign").bind Alignment.ofName?
    isRow := (s.string? "flexDirection").any fun d => Text.nameKey d == "row"
    justify := (s.string? "justifyContent").bind Justify.ofName? }

/-! ### Borders -/

/-- How the line of a border is drawn. -/
inductive Rule where
  | dashed
  | double
  deriving DecidableEq, Repr

/-- Whether a text contains another one. -/
def containsText (part : List Char) : List Char → Bool
  | [] => part.isEmpty
  | c :: rest => part.isPrefixOf (c :: rest) || containsText part rest

def isDashed (border : String) : Bool :=
  containsText "dashed".toList border.toList

/-- Whether the description of a border, without blanks around it, hides it. -/
def hidesBorder (border : String) : Bool :=
  border.isEmpty || Text.lower border == "none" || border == "0" ||
    ['0', ' '].isPrefixOf border.toList || ['0', 'p', 'x'].isPrefixOf border.toList

/-- The line that the description of a border asks for. -/
def border? : Json → Option Rule
  | .string s =>
    let s := Text.trim s
    if hidesBorder s then none else some (if isDashed s then .dashed else .double)
  | .number n => if n.toFloat > 0.0 then some .double else none
  | _ => none

def Style.border? (s : Style) (key : String) : Option Rule :=
  (s.get? key).bind Receipt.border?

def Rule.line (r : Rule) (width : Nat) : String :=
  String.ofList (List.replicate width (match r with | .dashed => '-' | .double => '='))

/-! ### Widths and distances -/

/-- The least double from which on all doubles are whole numbers. -/
def wholeFrom : Float := 4503599627370496.0

/-- The whole number nearest to a double that is not negative.  A half goes up. -/
def nearestWhole (x : Float) : Float :=
  if x < wholeFrom then
    let below := x.toUInt64.toFloat
    if x - below < 0.5 then below else below + 1.0
  else x

/-- A finite number of characters, rounded and brought between none and all. -/
def roundColumns? (columns : Float) (available : Nat) : Option Nat :=
  if columns.isFinite then
    let all := Float.ofNat available
    let rounded := if columns < 0.0 then 0.0 else nearestWhole columns
    let held := if rounded > all then all else rounded
    some held.toUInt64.toNat
  else none

/-- A width in characters: a number, or a share of what is available. -/
def columns? (v : Json) (available : Nat) : Option Nat :=
  let columns := match v with
    | .number n => some n.toFloat
    | .string s =>
      let s := Text.trim s
      match s.toList.reverse with
      | '%' :: rest =>
        (Decimal.parse? (Text.trim (String.ofList rest.reverse))).map fun p =>
          p / 100.0 * Float.ofNat available
      | _ => Decimal.parse? s
    | _ => none
  columns.bind fun c => roundColumns? c available

def Style.width? (s : Style) (available : Nat) : Option Nat :=
  (s.get? "width").bind fun v => columns? v available

/-- Empty lines around a node. -/
structure Spacing where
  top : Nat
  bottom : Nat
  deriving DecidableEq, Repr

/-- The units of distance that make an empty line. -/
def unitsPerLine : Float := 10.0

/-- The distance on one side: its own attribute, or the one for all sides.  It
cannot be negative. -/
def Style.side (s : Style) (own all : String) : Float :=
  let units := ((s.number? own).or (s.number? all)).getD 0.0
  if units < 0.0 then 0.0 else units

/-- The empty lines for a distance, to the nearest one. -/
def linesOfUnits (units : Float) : Nat :=
  (nearestWhole (units / unitsPerLine)).toUInt64.toNat

/-- The empty lines that the margins and paddings of a style ask for. -/
def Style.spacing (s : Style) : Spacing :=
  { top := linesOfUnits (s.side "marginTop" "margin" + s.side "paddingTop" "padding")
    bottom := linesOfUnits (s.side "marginBottom" "margin" + s.side "paddingBottom" "padding") }

end Receipt
