import Scriptlet.Command.Run

/-!
# The program

Carries out a command line on the machine it runs on.  The environment variable `DEBUG` says how
much of a compilation is logged, to standard error.
-/

namespace Scriptlet.Main

/-- The name of a file for the system; no file has a name that is not UTF-8. -/
def fileName (path : Text) : String :=
  path.toString?.getD ""

/-- Why the system could not read or write a file. -/
def fileError (path : Text) : IO.Error → FileError
  | .noFileOrDirectory _ _ _ => .missing path
  | .inappropriateType _ code _ => if code = 20 then .notFolder path else .isFolder path
  | e => .other path (.ofString (toString e))

/-- Reads a stream to its end. -/
partial def readAll (stream : IO.FS.Stream) (done : ByteArray) : IO ByteArray := do
  let block ← stream.read 65536
  if block.isEmpty then return done else readAll stream (done ++ block)

def write (stream : IO.FS.Stream) (t : Text) : IO Unit := do
  stream.write t.bytes.toByteArray
  stream.flush

/-- The names in a folder, sorted. -/
def listFolder (path : Text) : IO (List Text) := do
  let folder ← IO.FS.realPath (fileName path)
  let names := (← folder.readDir).toList.map fun entry => Text.ofString entry.fileName
  return names.mergeSort fun a b => (compare a b).isLE

instance : Host IO where
  print t := do write (← IO.getStdout) t
  log lines := do
    for line in lines do write (← IO.getStderr) (line ++ "\n")
  logSetting := return (← IO.getEnv "DEBUG").map Text.ofString
  input := return ⟨(← readAll (← IO.getStdin) .empty).toList⟩
  readFile path := do
    try return .ok ⟨(← IO.FS.readBinFile (fileName path)).toList⟩
    catch e => return .error (fileError path e)
  writeFile path t := do
    try return .ok (← IO.FS.writeBinFile (fileName path) t.bytes.toByteArray)
    catch e => return .error (fileError path e)
  entries path := do
    try listFolder path catch _ => return []

/-- Whether standard output shows colours. -/
def hasColor : IO Bool := do
  let isTerminal ← (← IO.getStdout).isTty
  return isTerminal && (← IO.getEnv "NO_COLOR").isNone && (← IO.getEnv "TERM") ≠ some "dumb"

end Scriptlet.Main

open Scriptlet in
def main (args : List String) : IO UInt32 := do
  match Invocation.ofArgs (args.map Text.ofString) with
  | .error e =>
    Main.write (← IO.getStderr) (.concat ["Error: ", e.message, "\n"])
    return 1
  | .ok invocation =>
    match ← invocation.run (← Main.hasColor) with
    | .success => return 0
    | .failure => return 1
