/-
Which dialect a conversion writes.
-/
import Receipt.Printer.Bematech
import Receipt.Printer.EscPos

namespace Receipt

/-- A dialect by name, or one that the caller brings. -/
inductive DialectChoice where
  | escPos
  | bematech
  | custom (d : Dialect)

namespace DialectChoice

/-- The dialect of a name.  A name of none means ESC/POS. -/
def ofName (name : String) : DialectChoice :=
  let key := Text.nameKey name
  if key == "escbematech" || key == "esc/bematech" || key == "bematech" then .bematech
  else .escPos

/-- The dialect that is chosen. -/
def dialect : DialectChoice → Dialect
  | .escPos => EscPos.dialect
  | .bematech => Bematech.dialect
  | .custom d => d

/-- The choice as diagnostics show it. -/
def describe : DialectChoice → String
  | .escPos => "EscPos"
  | .bematech => "EscBematech"
  | .custom d => "Custom(" ++ d.name ++ ")"

end DialectChoice

end Receipt
