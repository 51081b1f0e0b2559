/-
The command line.

There is one command, `convert`, with the file of the document and a number of
switches.  A switch with a value takes it behind an equals sign or as the next
word, unless that starts with a hyphen; each switch is given at most once, and
behind `--` no word is a switch.  Words are understood one after the other, so
what comes first, a fault or a call for help, decides.
-/
namespace Receipt.Cli

/-- What a conversion is asked to do. -/
structure Request where
  input : String
  output : Option String
  options : Option String
  paperWidth : Option Nat
  encoding : Option String
  adapter : Option String
  cut : Option String
  feedBeforeCut : Option Nat
  dither : Option String
  selectCodePage : Bool
  debug : Bool
  hex : Bool
  deriving Repr, DecidableEq

/-- What the command line asks for. -/
inductive Invocation where
  | version
  | help
  | convertHelp
  | convert (request : Request)
  /-- Words that make no sense. -/
  | refused
  deriving Repr, DecidableEq

inductive SwitchKind where
  | path
  | number
  | text
  | nothing
  deriving Repr, DecidableEq

/-- A switch of the command. -/
structure Switch where
  name : String
  letter : Option Char
  kind : SwitchKind
  /-- What its value is called. -/
  value : String
  about : String

def switches : List Switch :=
  [⟨"output", some 'o', .path, "FILE", "Write bytes here instead of stdout"⟩,
    ⟨"options", none, .path, "FILE", "JSON file with conversion options (flags override it)"⟩,
    ⟨"paper-width", none, .number, "PAPER_WIDTH",
      "Characters per line (48 for 80mm, 32 for 58mm)"⟩,
    ⟨"encoding", none, .text, "ENCODING", "Code page: cp437, cp850, cp860"⟩,
    ⟨"adapter", none, .text, "ADAPTER", "Printer dialect: escpos, escbematech"⟩,
    ⟨"cut", none, .text, "CUT", "Cut after printing: full, partial, none"⟩,
    ⟨"feed-before-cut", none, .number, "FEED_BEFORE_CUT", "Lines to feed before cutting"⟩,
    ⟨"dither", none, .text, "DITHER", "Image dithering: threshold, bayer, floyd-steinberg"⟩,
    ⟨"select-code-page", none, .nothing, "",
      "Select the code page on the printer after initializing"⟩,
    ⟨"debug", none, .nothing, "", "Log the tree before converting"⟩,
    ⟨"hex", none, .nothing, "", "Print a hex dump instead of raw bytes"⟩]

/-- The natural number that a word denotes, if it takes no more than 64 bits. -/
def number? (s : String) : Option Nat :=
  let digits := match s.toList with
    | '+' :: rest => rest
    | cs => cs
  if digits.isEmpty || !digits.all Char.isDigit then none
  else
    let n := digits.foldl (fun n c => n * 10 + (c.toNat - '0'.toNat)) 0
    if n < UInt64.size then some n else none

/-- Whether a value is one that a switch can take. -/
def SwitchKind.accepts (kind : SwitchKind) (value : String) : Bool :=
  match kind with
  | .path => !value.isEmpty
  | .number => (number? value).isSome
  | .text => true
  | .nothing => false

/-- What has been understood so far: the switches with their values, and the
words that are none. -/
structure Parsed where
  given : List (String × String)
  words : List String

namespace Parsed

/-- The value that was given for a switch. -/
def value? (p : Parsed) (name : String) : Option String :=
  p.given.lookup name

/-- One switch more, unless it was given or cannot take the value. -/
def give (p : Parsed) (s : Switch) (value : String) : Except Invocation Parsed :=
  if (p.value? s.name).isSome then .error .refused
  else if s.kind ≠ .nothing ∧ ¬s.kind.accepts value then .error .refused
  else .ok { p with given := (s.name, value) :: p.given }

/-- One word more that is no switch.  The command takes one. -/
def word (p : Parsed) (w : String) : Except Invocation Parsed :=
  if p.words.isEmpty && !w.isEmpty then .ok { p with words := [w] } else .error .refused

end Parsed

/-- How a word is to be understood. -/
inductive Word where
  /-- Two hyphens alone. -/
  | separator
  /-- A switch by its name, perhaps with a value. -/
  | long (name : String) (value : Option String)
  /-- A switch by its letter, and what is written behind the letter. -/
  | short (letter : Char) (rest : List Char)
  | plain

/-- How a word is to be understood.  A single hyphen is a word like any other. -/
def Word.ofString (w : String) : Word :=
  match w.toList with
  | ['-', '-'] => .separator
  | '-' :: '-' :: rest =>
    match rest.span (· != '=') with
    | (name, _ :: value) => .long (String.ofList name) (some (String.ofList value))
    | (name, []) => .long (String.ofList name) none
  | '-' :: letter :: rest => .short letter rest
  | _ => .plain

/-- The words that no switch stands among. -/
def parseWords (p : Parsed) : List String → Except Invocation Parsed
  | [] => .ok p
  | w :: rest => do parseWords (← p.word w) rest

/-- The value written right behind the letter of a switch, with or without an
equals sign. -/
def attached? (rest : List Char) : Option String :=
  match rest with
  | [] => none
  | '=' :: value => some (String.ofList value)
  | value => some (String.ofList value)

/-- The words behind `convert`, the first of which is the value of `pending` if a
switch still waits for one. -/
def parseArguments (p : Parsed) (pending : Option Switch) :
    List String → Except Invocation Parsed
  | [] => if pending.isSome then .error .refused else .ok p
  | w :: rest =>
    match pending, Word.ofString w with
    | some s, .plain => do parseArguments (← p.give s w) none rest
    | some _, _ => .error .refused
    | none, .plain => do parseArguments (← p.word w) none rest
    | none, .separator => parseWords p rest
    | none, .long name value =>
      if name == "help" then .error (if value.isNone then .convertHelp else .refused)
      else
        match switches.find? fun s => s.name == name with
        | none => .error .refused
        | some s =>
          match s.kind, value with
          | .nothing, none => do parseArguments (← p.give s "") none rest
          | .nothing, some _ => .error .refused
          | _, some value => do parseArguments (← p.give s value) none rest
          | _, none => parseArguments p (some s) rest
    | none, .short letter behind =>
      if letter == 'h' then .error .convertHelp
      else
        match switches.find? fun s => s.letter == some letter with
        | none => .error .refused
        | some s =>
          match attached? behind with
          | some value => do parseArguments (← p.give s value) none rest
          | none => parseArguments p (some s) rest

/-- What the words of the command ask for.  The document has to be among them. -/
def Parsed.invocation (p : Parsed) : Invocation :=
  match p.words with
  | [input] =>
    .convert
      { input := input
        output := p.value? "output"
        options := p.value? "options"
        paperWidth := (p.value? "paper-width").bind number?
        encoding := p.value? "encoding"
        adapter := p.value? "adapter"
        cut := p.value? "cut"
        feedBeforeCut := (p.value? "feed-before-cut").bind number?
        dither := p.value? "dither"
        selectCodePage := (p.value? "select-code-page").isSome
        debug := (p.value? "debug").isSome
        hex := (p.value? "hex").isSome }
  | _ => .refused

/-- What the words behind the name of the program ask for. -/
def parse : List String → Invocation
  | "convert" :: rest =>
    match parseArguments ⟨[], []⟩ none rest with
    | .ok p => p.invocation
    | .error i => i
  | ["help"] => .help
  | ["help", "convert"] => .convertHelp
  | w :: _ =>
    match Word.ofString w with
    | .long "help" none => .help
    | .long "version" none => .version
    | .short 'h' _ => .help
    | .short 'V' _ => .version
    | _ => .refused
  | [] => .refused

/-! ### Help -/

/-- The name and number of the program. -/
def versionText : String := "thermal-escpos 0.1.0\n"

def helpText : String :=
  "Compiles print-node document trees into ESC/POS and ESC/Bematech thermal printer commands\n" ++
  "\n" ++
  "Usage: thermal-escpos <COMMAND>\n" ++
  "\n" ++
  "Commands:\n" ++
  "  convert  Convert a JSON print-node tree to printer bytes\n" ++
  "  help     Print this message or the help of the given subcommand(s)\n" ++
  "\n" ++
  "Options:\n" ++
  "  -h, --help     Print help\n" ++
  "  -V, --version  Print version\n"

def Switch.usage (s : Switch) : String :=
  (match s.letter with
    | some c => "-" ++ String.singleton c ++ ", --"
    | none => "    --") ++
  s.name ++ if s.kind = .nothing then "" else " <" ++ s.value ++ ">"

/-- A line of the help: what is explained, and behind a gap the explanation. -/
def helpLine (width : Nat) (usage about : String) : String :=
  "  " ++ usage ++ String.ofList (List.replicate (width - usage.length) ' ') ++ "  " ++ about ++ "\n"

def convertHelpText : String :=
  let lines := switches.map (fun s => (s.usage, s.about)) ++ [("-h, --help", "Print help")]
  let width := lines.foldl (fun w l => max w l.1.length) 0
  "Convert a JSON print-node tree to printer bytes\n" ++
  "\n" ++
  "Usage: thermal-escpos convert [OPTIONS] <INPUT>\n" ++
  "\n" ++
  "Arguments:\n" ++
  "  <INPUT>  JSON file holding the root print node (`-` for stdin)\n" ++
  "\n" ++
  "Options:\n" ++
  String.join (lines.map fun l => helpLine width l.1 l.2)

end Receipt.Cli
