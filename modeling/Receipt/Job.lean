/-
A print job: the commands for one printer, and the formatting it is in after
them.

A change of mode is sent only where it changes something, so parts of a document
that ask for what is already in force cost nothing.  Feeds, cuts, text and
rasters are always sent.  The commands are kept as commands; their bytes are a
matter of the dialect.
-/
import Receipt.Printer.Dialect

namespace Receipt

/-- A print job in progress. -/
structure Job where
  /-- Characters in a line at normal width. -/
  paperWidth : Nat
  page : CodePage
  dialect : Dialect
  /-- The formatting the printer is in after the commands. -/
  format : Format
  commands : Array Command

namespace Job

/-- A job without commands, for a printer that has just been switched on. -/
def start (paperWidth : Nat) (page : CodePage) (dialect : Dialect) : Job :=
  ⟨paperWidth, page, dialect, .default, #[]⟩

def send (j : Job) (c : Command) : Job :=
  { j with commands := j.commands.push c }

/-- The bytes of the job. -/
def bytes (j : Job) : List UInt8 :=
  j.dialect.encodeAll j.commands.toList

/-- Bring the printer back to the modes it has when switched on. -/
def reset (j : Job) : Job :=
  { j.send .reset with format := .default }

def setAlign (j : Job) (a : Alignment) : Job :=
  if j.format.align = a then j
  else { j.send (.align a) with format := { j.format with align := a } }

/-- Ask for a character size, or for the nearest one that printers know. -/
def setSize (j : Job) (s : CharacterSize) : Job :=
  if j.format.size = s.clamped then j
  else { j.send (.size s.clamped) with format := { j.format with size := s.clamped } }

/-- Ask for emphasis, or for none. -/
def setBold (j : Job) (on : Bool) : Job :=
  if j.format.bold = on then j
  else { j.send (.bold on) with format := { j.format with bold := on } }

/-- Ask for a formatting: alignment, then size, then emphasis. -/
def apply (j : Job) (f : Format) : Job :=
  ((j.setAlign f.align).setSize f.size).setBold f.bold

/-- Print text in the characters of the job's code page.  No text is no command. -/
def text (j : Job) (s : String) : Job :=
  if s.isEmpty then j else j.send (.text s j.page)

def newline (j : Job) : Job :=
  j.text "\n"

def feed (j : Job) (lines : Nat) : Job :=
  j.send (.feed lines)

def cut (j : Job) (c : Cut) (lines : Nat) : Job :=
  j.send (.cut c lines)

/-- Print a raster.  One whose data does not agree with its dimensions is refused,
and a printer without pictures is sent nothing. -/
def raster (j : Job) (r : Raster) : Except Error Job :=
  if ¬r.Consistent then
    .error (.command (.inconsistentRaster r.data.length r.width r.height))
  else if j.dialect.supports .imagePrinting then .ok (j.send (.raster r))
  else .ok j

/-- Have the printer use the job's code page, if it can be told to. -/
def selectCodePage (j : Job) : Job :=
  if j.dialect.supports .codePageSelection then j.send (.codePage j.page) else j

end Job

end Receipt
