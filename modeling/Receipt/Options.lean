/-
The settings of a conversion.

As JSON they are an object or a list of all settings in order.  A name of several
words may be written in either of the two usual ways; what is missing keeps its
default, and members of other names are passed over.
-/
import Receipt.Json.Shape
import Receipt.Printer.Choice
import Receipt.Raster.Dither

namespace Receipt

/-! ### Cutting -/

/-- Whether and how the paper is cut at the end.  Without a cut it is not fed
either. -/
abbrev CutMode := Option Cut

namespace CutMode

def ofName (name : String) : Except Error CutMode :=
  let key := Text.nameKey name
  if key == "full" || key == "true" then .ok (some .full)
  else if key == "partial" then .ok (some .partly)
  else if key == "none" || key == "false" then .ok none
  else .error (.command (.unknownCut key))

def name : CutMode → String
  | none => "none"
  | some .full => "full"
  | some .partly => "partial"

def toJson : CutMode → Json
  | none => .bool false
  | some c => .string (name (some c))

end CutMode

/-! ### Settings -/

/-- The settings of a conversion. -/
structure Options where
  /-- Characters in a line at normal width. -/
  paperWidth : Nat
  encoding : CodePage
  cut : CutMode
  /-- Lines fed before the cut. -/
  feedBeforeCut : Nat
  dialect : DialectChoice
  /-- Whether to tell about the conversion. -/
  debug : Bool
  dither : Dithering
  /-- Whether the printer is told its code page. -/
  selectCodePage : Bool

namespace Options

/-- The settings for paper of 80 millimetres and a printer of the common kind. -/
def default : Options :=
  { paperWidth := 48
    encoding := .default
    cut := some .full
    feedBeforeCut := 3
    dialect := .escPos
    debug := false
    dither := .threshold
    selectCodePage := false }

instance : Inhabited Options := ⟨default⟩

/-! ### Writing -/

/-- The name of a way of dithering in JSON. -/
def ditherName : Dithering → String
  | .threshold => "threshold"
  | .bayer => "bayer"
  | .floydSteinberg => "floyd-steinberg"

/-- The JSON value of the settings.  The dialect, which may have no name, is left
out. -/
def toJson (o : Options) : Json :=
  .object
    [("cut", o.cut.toJson), ("debug", .bool o.debug), ("dither", .string (ditherName o.dither)),
      ("encoding", .string o.encoding.name), ("feedBeforeCut", .number (.int o.feedBeforeCut)),
      ("paperWidth", .number (.int o.paperWidth)), ("selectCodePage", .bool o.selectCodePage)]

/-! ### Reading -/

/-- The settings by name. -/
inductive Field where
  | paperWidth
  | encoding
  | cut
  | feedBeforeCut
  | dialect
  | debug
  | dither
  | selectCodePage
  deriving DecidableEq, Repr

namespace Field

/-- All settings, in the order of their list. -/
def all : List Field :=
  [.paperWidth, .encoding, .cut, .feedBeforeCut, .dialect, .debug, .dither, .selectCodePage]

def name : Field → String
  | .paperWidth => "paperWidth"
  | .encoding => "encoding"
  | .cut => "cut"
  | .feedBeforeCut => "feedBeforeCut"
  | .dialect => "commandAdapter"
  | .debug => "debug"
  | .dither => "dither"
  | .selectCodePage => "selectCodePage"

/-- The other ways to write names of several words. -/
def aliases : List (String × Field) :=
  [("paper_width", .paperWidth), ("feed_before_cut", .feedBeforeCut),
    ("command_adapter", .dialect), ("select_code_page", .selectCodePage)]

/-- The setting that a key names. -/
def ofKey? (key : String) : Option Field :=
  (all.find? fun f => f.name == key).or (aliases.lookup key)

end Field

open Json (Origin Reading Items Members scanned)

/-- The names of the ways of dithering, where case counts. -/
def ditherNames : List (String × Dithering) :=
  [("none", .threshold), ("threshold", .threshold), ("bayer", .bayer),
    ("floyd-steinberg", .floydSteinberg), ("floyd_steinberg", .floydSteinberg),
    ("fs", .floydSteinberg)]

/-- Whether and how to cut: no, yes, or the name of a mode. -/
def readCut (o : Origin) (r : Reading) : Except JsonError CutMode := do
  match ← r.any o with
  | .bool false => return none
  | .bool true => return some .full
  | .string name => (CutMode.ofName name).mapError fun e => .data (.refused e.message)
  | _ => throw (.data (.noVariantMatches "CutSetting"))

/-- The settings with one of them read. -/
def readField (o : Origin) (s : Options) (r : Reading) : Field → Except JsonError Options
  | .paperWidth => return { s with paperWidth := ← r.asNat }
  | .encoding => return { s with encoding := .ofName (← r.asString) }
  | .cut => return { s with cut := ← readCut o r }
  | .feedBeforeCut => return { s with feedBeforeCut := ← r.asNat }
  | .dialect => return { s with dialect := .ofName (← r.asString) }
  | .debug => return { s with debug := ← r.asBool }
  | .dither => return { s with dither := ← r.asVariant o ditherNames }
  | .selectCodePage => return { s with selectCodePage := ← r.asBool }

/-- The members of settings that are written as an object.  None may be there
twice, by whatever name. -/
def readMembers (o : Origin) (seen : List Field) (s : Options) :
    Members → Except JsonError Options
  | .done => .ok s
  | .broken cause => .error (.syntactic cause.whenRead)
  | .unkeyed _ => .error (.syntactic .keyMustBeString)
  | .next key value rest => do
    match Field.ofKey? (← scanned key) with
    | none =>
      value.skip
      readMembers o seen s rest
    | some f =>
      if seen.contains f then throw (.data (.duplicateField f.name))
      let s ← readField o s value f
      readMembers o (f :: seen) s rest

/-- Settings that are written as a list, of which those in `fields` are to come. -/
def readItems (o : Origin) (s : Options) : List Field → Items → Except JsonError Options
  | _, .done => .ok s
  | fields, .broken cause =>
    .error (.syntactic (if fields.isEmpty then cause.whenFull else cause.whenRead))
  | f :: fields, .next value rest => do
    let s ← readField o s value f
    readItems o s fields rest
  | [], items => do
    items.close o Field.all.length
    return s

def read (o : Origin) : Reading → Except JsonError Options
  | .object members => do readMembers (← o.enter) [] default members
  | .array items => do readItems (← o.enter) default Field.all items
  | r => r.mismatch "struct ConvertOptions"

def ofJson (v : Json) : Except JsonError Options :=
  Json.ofValue read v

def parse (s : String) : Except JsonError Options :=
  Json.ofText read s

end Options

end Receipt
