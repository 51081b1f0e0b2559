/-
Running the command line.

Files, input and output are reached through an interface.  The settings are read
first and the switches applied to them, then the document is read and converted,
and the first thing that fails ends the run.
-/
import Receipt.Cli.Arguments
import Receipt.Cli.HexDump
import Receipt.Convert
import Receipt.Document.Wire

namespace Receipt.Cli

/-- What a run can reach. -/
structure Console (m : Type → Type) where
  files : Files m
  /-- All of the input. -/
  input : m (List UInt8)
  /-- Put bytes into a file. -/
  write : String → List UInt8 → m (Except FileError Unit)

/-- What a run leaves behind, files apart. -/
structure Outcome where
  exit : UInt32
  output : List UInt8
  errors : String

def Outcome.failure (e : Error) : Outcome :=
  ⟨1, [], "Error: " ++ e.message ++ "\n"⟩

def textOf (bytes : List UInt8) : Except Error String :=
  match String.fromUTF8? (ByteArray.mk bytes.toArray) with
  | some s => .ok s
  | none => .error (.file .notText)

/-- The settings with the switches applied. -/
def Request.apply (r : Request) (o : Options) : Except Error Options := do
  let o := { o with paperWidth := r.paperWidth.getD o.paperWidth }
  let o ← match r.encoding with
    | none => pure o
    | some name =>
      match CodePage.ofName? name with
      | some page => pure { o with encoding := page }
      | none => throw (.command (.unknownEncoding name))
  let o := { o with dialect := (r.adapter.map DialectChoice.ofName).getD o.dialect }
  let o ← match r.cut with
    | none => pure o
    | some name => do pure { o with cut := ← CutMode.ofName name }
  let o := { o with feedBeforeCut := r.feedBeforeCut.getD o.feedBeforeCut }
  let o ← match r.dither with
    | none => pure o
    | some name =>
      match Dithering.ofName? name with
      | some d => pure { o with dither := d }
      | none => throw (.command (.unknownDithering name))
  return { o with
    selectCodePage := o.selectCodePage || r.selectCodePage
    debug := o.debug || r.debug }

section

variable {m : Type → Type} [Monad m]

def readText (c : Console m) (path : String) : ExceptT Error m String := do
  match ← c.files.read path with
  | .ok bytes => liftExcept (textOf bytes)
  | .error e => throw (.file e)
where
  /-- A result that has come about already. -/
  liftExcept {α : Type} (x : Except Error α) : ExceptT Error m α :=
    ExceptT.mk (pure x)

/-- The settings that a request names, or the usual ones. -/
def settings (c : Console m) (r : Request) : ExceptT Error m Options := do
  let o ← match r.options with
    | none => pure Options.default
    | some path => do
      let text ← readText c path
      readText.liftExcept ((Options.parse text).mapError .json)
  readText.liftExcept (r.apply o)

/-- The document that a request names.  A hyphen stands for the input. -/
def document (c : Console m) (r : Request) : ExceptT Error m Node := do
  let text ←
    if r.input == "-" then do
      let bytes ← c.input
      readText.liftExcept (textOf bytes)
    else readText c r.input
  readText.liftExcept ((Node.parse text).mapError .json)

def convertRequest (c : Console m) (r : Request) : ExceptT Error m Outcome := do
  let o ← settings c r
  let root ← document c r
  let bytes ← ExceptT.mk (Convert.convert root o (Source.decode c.files))
  let bytes := if r.hex then (HexDump.dump bytes).toUTF8.toList else bytes
  match r.output with
  | none => return ⟨0, bytes, ""⟩
  | some path =>
    match ← c.write path bytes with
    | .error e => throw (.file e)
    | .ok () =>
      return ⟨0, [], "Wrote " ++ Nat.repr bytes.length ++ " bytes to " ++ path ++ "\n"⟩

def run (c : Console m) (args : List String) : m Outcome := do
  match parse args with
  | .version => return ⟨0, versionText.toUTF8.toList, ""⟩
  | .help => return ⟨0, helpText.toUTF8.toList, ""⟩
  | .convertHelp => return ⟨0, convertHelpText.toUTF8.toList, ""⟩
  | .refused => return ⟨2, [], ""⟩
  | .convert r =>
    match ← (convertRequest c r).run with
    | .ok outcome => return outcome
    | .error e => return .failure e

end

end Receipt.Cli
