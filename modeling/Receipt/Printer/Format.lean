/-
The formatting modes of a printer: alignment, character size and emphasis.
-/
namespace Receipt

/-- Where a line stands between the margins. -/
inductive Alignment where
  | left
  | center
  | right
  deriving DecidableEq, Repr, Inhabited

/-- The magnification of characters on either axis.  Printers know 1 to 8. -/
structure CharacterSize where
  width : UInt8
  height : UInt8
  deriving DecidableEq, Repr

namespace CharacterSize

/-- The size of characters that are not magnified. -/
def normal : CharacterSize :=
  ⟨1, 1⟩

/-- The nearest magnification that printers know. -/
def clampAxis (n : UInt8) : UInt8 :=
  if n < 1 then 1 else if 8 < n then 8 else n

/-- The size with both magnifications brought between 1 and 8. -/
def clamped (s : CharacterSize) : CharacterSize :=
  ⟨clampAxis s.width, clampAxis s.height⟩

end CharacterSize

/-- The formatting that text is printed with. -/
structure Format where
  align : Alignment
  size : CharacterSize
  bold : Bool
  deriving DecidableEq, Repr

/-- The formatting of a printer that has just been switched on. -/
def Format.default : Format :=
  ⟨.left, .normal, false⟩

instance : Inhabited Format := ⟨Format.default⟩

end Receipt
