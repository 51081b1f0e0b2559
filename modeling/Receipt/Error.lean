/-
Why a conversion fails.

Text and layout never fail: a style that makes no sense is ignored.  What fails
is an image that cannot be printed, a setting that does not exist, JSON that is
not what it should be, and the files behind them.
-/
import Receipt.Json.Error

namespace Receipt

/-- Why a file cannot be read or written. -/
inductive FileError where
  | notFound
  | isDirectory
  | notDirectory
  | permissionDenied
  | zeroInName
  | notText
  /-- Any other reason, in the words of the system. -/
  | other (reason : String)
  deriving DecidableEq, Repr

def FileError.message : FileError → String
  | .notFound => "No such file or directory (os error 2)"
  | .isDirectory => "Is a directory (os error 21)"
  | .notDirectory => "Not a directory (os error 20)"
  | .permissionDenied => "Permission denied (os error 13)"
  | .zeroInName => "file name contained an unexpected NUL byte"
  | .notText => "stream did not contain valid UTF-8"
  | .other reason => reason

/-- Why a text is not base64. -/
inductive Base64Error where
  | symbol (byte : UInt8) (offset : Nat)
  | lastSymbol (byte : UInt8) (offset : Nat)
  | length (n : Nat)
  | padding
  deriving DecidableEq, Repr

def Base64Error.message : Base64Error → String
  | .symbol byte offset =>
    "Invalid symbol " ++ Nat.repr byte.toNat ++ ", offset " ++ Nat.repr offset ++ "."
  | .lastSymbol byte offset =>
    "Invalid last symbol " ++ Nat.repr byte.toNat ++ ", offset " ++ Nat.repr offset ++ "."
  | .length n => "Invalid input length: " ++ Nat.repr n
  | .padding => "Invalid padding"

/-- Why bytes are not a picture. -/
inductive PictureError where
  | unknownFormat
  | endOfData
  | malformed (reason : String)
  deriving DecidableEq, Repr

def PictureError.message : PictureError → String
  | .unknownFormat => "The image format could not be determined"
  | .endOfData => "unexpected end of file"
  | .malformed reason => "Format error decoding Png: " ++ reason

/-- Why an image cannot be printed. -/
inductive ImageError where
  | zeroWidth
  | tooWide (width : Nat)
  | wrongLength (length expected width height : Nat)
  | noPixels
  | noRoom
  | missingComma
  | base64 (cause : Base64Error)
  | unreadable (path : String) (cause : FileError)
  | undownloadable (url : String) (reason : String)
  | unrecognized (shown : String)
  | undecodable (cause : PictureError)
  /-- The reason of a decoder that comes from outside, in its own words. -/
  | other (reason : String)
  deriving DecidableEq, Repr

/-- Width and height as messages show them. -/
def dimensions (width height : Nat) : String :=
  Nat.repr width ++ "x" ++ Nat.repr height

/-- The wording of an image error. -/
def ImageError.message : ImageError → String
  | .zeroWidth => "raster width must be at least 1"
  | .tooWide width => "raster width " ++ Nat.repr width ++ " is too wide"
  | .wrongLength length expected width height =>
    "raster data is " ++ Nat.repr length ++ " bytes, expected " ++ Nat.repr expected ++
      " for " ++ dimensions width height
  | .noPixels => "image has no pixels"
  | .noRoom => "no room to print image"
  | .missingComma => "Malformed data URI: missing ','"
  | .base64 cause => "Invalid base64 in data URI: " ++ cause.message
  | .unreadable path cause => "Failed to read " ++ path ++ ": " ++ cause.message
  | .undownloadable url reason => "Failed to download " ++ url ++ ": " ++ reason
  | .unrecognized shown =>
    "Image source is neither a readable file nor base64 data: " ++ shown
  | .undecodable cause => "Failed to decode image: " ++ cause.message
  | .other reason => reason

/-- Why a command is refused. -/
inductive CommandError where
  | inconsistentRaster (length width height : Nat)
  | unknownCut (name : String)
  | unknownEncoding (name : String)
  | unknownDithering (name : String)
  deriving DecidableEq, Repr

/-- The wording of a refused command. -/
def CommandError.message : CommandError → String
  | .inconsistentRaster length width height =>
    "raster data is " ++ Nat.repr length ++ " bytes for " ++ dimensions width height
  | .unknownCut name => "unknown cut mode '" ++ name ++ "'"
  | .unknownEncoding name => "unknown encoding '" ++ name ++ "'"
  | .unknownDithering name => "unknown dithering algorithm '" ++ name ++ "'"

/-- Why a conversion fails. -/
inductive Error where
  | image (cause : ImageError)
  | command (cause : CommandError)
  | json (cause : JsonError)
  | file (cause : FileError)

/-- The wording of a failure. -/
def Error.message : Error → String
  | .image cause => "Image error: " ++ cause.message
  | .command cause => "Invalid command: " ++ cause.message
  | .json cause => "JSON error: " ++ cause.message
  | .file cause => "I/O error: " ++ cause.message

end Receipt
