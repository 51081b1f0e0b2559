/-
Where pictures come from.

A source is data written out in a URI, the address of a page, the URI or the path
of a file, or else bare base64.  Files are reached through an interface, so that
the same rules hold for a file system, for a few files kept in memory and for
none.
-/
import Receipt.Image.Base64
import Receipt.Image.Png
import Receipt.Text.Blank

namespace Receipt

/-- Access to files by path. -/
structure Files (m : Type → Type) where
  exists? : String → m Bool
  read : String → m (Except FileError (List UInt8))

namespace Source

/-- What stands behind the given start of a text. -/
def after? (start s : String) : Option String :=
  if start.toList.isPrefixOf s.toList then some (String.ofList (s.toList.drop start.length))
  else none

/-- The text before the first of a character, and the text behind it. -/
def splitOnce? (c : Char) (s : String) : Option (String × String) :=
  match s.toList.span (· != c) with
  | (before, _ :: behind) => some (String.ofList before, String.ofList behind)
  | (_, []) => none

/-- Whether the header of a data URI says that base64 follows. -/
def saysBase64 (header : String) : Bool :=
  (header.toList.splitOn ';').any fun part => Text.lower (String.ofList part) == "base64"

/-- The bytes of a data URI, given what stands behind its scheme. -/
def dataUri (rest : String) : Except Error (List UInt8) :=
  match splitOnce? ',' rest with
  | none => .error (.image .missingComma)
  | some (header, payload) =>
    if saysBase64 header then
      (Base64.decodeLoosely payload).mapError fun e => .image (.base64 e)
    else .ok payload.toUTF8.toList

/-- A source as messages show it: no more than 48 characters. -/
def shown (source : String) : String :=
  if 48 < source.length then String.ofList (source.toList.take 48) ++ "..." else source

/-- Whether a source is the address of a page. -/
def isAddress (source : String) : Bool :=
  (after? "http://" source).isSome || (after? "https://" source).isSome

variable {m : Type → Type} [Monad m]

/-- The bytes of a file. -/
def readFile (files : Files m) (path : String) : m (Except Error (List UInt8)) := do
  return (← files.read path).mapError fun e => .image (.unreadable path e)

/-- The bytes behind a source.  Nothing is fetched from elsewhere: no address is
one that can be reached. -/
def loadBytes (files : Files m) (source : String) : m (Except Error (List UInt8)) := do
  let source := Text.trim source
  match after? "data:" source with
  | some rest => return dataUri rest
  | none =>
    if isAddress source then
      return .error (.image (.undownloadable source "builder error"))
    else
      match after? "file://" source with
      | some path => readFile files path
      | none =>
        if ← files.exists? source then readFile files source
        else
          return (Base64.decodeLoosely source).mapError fun _ =>
            .image (.unrecognized (shown source))

/-- The picture that bytes hold, in gray on white paper. -/
def decodeBytes (bytes : List UInt8) : Except Error GrayImage :=
  let picture :=
    if Png.signature.isPrefixOf bytes then Png.decode bytes.toArray
    else .error .unknownFormat
  match picture with
  | .ok p => .ok p.flatten
  | .error e => .error (.image (.undecodable e))

/-- The picture behind a source. -/
def decode (files : Files m) (source : String) : m (Except Error GrayImage) := do
  match ← loadBytes files source with
  | .ok bytes => return decodeBytes bytes
  | .error e => return .error e

end Source

end Receipt
