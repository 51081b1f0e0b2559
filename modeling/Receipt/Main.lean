/-
The program: the command line over the files, input and output of the system.
-/
import Receipt.Cli.Run

namespace Receipt.Main

/-- The reason of a failure of the system.  Its number may come negated. -/
def fileError : IO.Error → FileError
  | .noFileOrDirectory .. => .notFound
  | .permissionDenied .. => .permissionDenied
  | .inappropriateType name code details =>
    if code == 20 || 0 - code == 20 then .notDirectory
    else if code == 21 || 0 - code == 21 then .isDirectory
    else .other (toString (IO.Error.inappropriateType name code details))
  | e => .other (toString e)

/-- What comes of an action of the system, for a name that the system can take. -/
def attempt {α : Type} (path : String) (action : IO α) : IO (Except FileError α) := do
  if path.toList.contains '\x00' then return .error .zeroInName
  try
    return .ok (← action)
  catch e => return .error (fileError e)

/-- The files of the system. -/
def files : Files IO where
  exists? path := do
    match ← attempt path (IO.FS.readBinFile path) with
    | .ok _ | .error .isDirectory | .error .permissionDenied => return true
    | .error _ => return false
  read path := do
    return (← attempt path (IO.FS.readBinFile path)).map ByteArray.toList

/-- The files, input and output of the system. -/
def console : Cli.Console IO where
  files := files
  input := do return (← (← IO.getStdin).readBinToEnd).toList
  write path bytes :=
    attempt path (IO.FS.writeBinFile path (ByteArray.mk bytes.toArray))

end Receipt.Main

/-- Run the command line and leave with its code. -/
def main (args : List String) : IO UInt32 := do
  let outcome ← Receipt.Cli.run Receipt.Main.console args
  let output ← IO.getStdout
  output.write (ByteArray.mk outcome.output.toArray)
  output.flush
  (← IO.getStderr).putStr outcome.errors
  return outcome.exit
