import Scriptlet.Files.Path
import Scriptlet.Files.NamePattern

/-!
# The host

Commands read and write files, read standard input and print.  They do so through a `Host`, so
that a run of a command is the same function whether it talks to a real machine or to files kept in
memory.

* `Host.source` — the text of a file, or standard input if no file is named.
* `Host.glob` — the files whose path matches a pattern.
-/

namespace Scriptlet

/-- Why a file cannot be read or written. -/
inductive FileError where
  | missing (path : Text)
  | isFolder (path : Text)
  /-- A component of the path in front of the last is no folder. -/
  | notFolder (path : Text)
  /-- A component of the path, or all of it, is longer than a name can be. -/
  | tooLong (path : Text)
  /-- The path holds a zero byte. -/
  | invalid (path : Text)
  | other (path reason : Text)
deriving DecidableEq, Repr

def FileError.message : FileError → Text
  | missing path => .concat ["open ", path, ": no such file or directory"]
  | isFolder path => .concat ["read ", path, ": is a directory"]
  | notFolder path => .concat ["open ", path, ": not a directory"]
  | tooLong path => .concat ["open ", path, ": file name too long"]
  | invalid path => .concat ["open ", path, ": invalid argument"]
  | other path reason => .concat ["open ", path, ": ", reason]

class Host (m : Type → Type) where
  print : Text → m Unit
  /-- Writes lines to the log. -/
  log : List Text → m Unit
  /-- The setting that says how much to log, if there is one. -/
  logSetting : m (Option Text)
  /-- All of standard input. -/
  input : m Text
  readFile : Text → m (Except FileError Text)
  writeFile : Text → Text → m (Except FileError Unit)
  /-- The names in a folder, sorted; nothing if there is no such folder. -/
  entries : Text → m (List Text)

namespace Host

variable {m : Type → Type} [Monad m] [Host m]

/-- The text of a file; without a name, that of standard input. -/
def source (path : Text) : m (Except FileError Text) :=
  if path.isEmpty then Except.ok <$> Host.input else Host.readFile path

/-- The names that match, unless one of them comes to a malformed chunk. -/
def matchingNames? (chunks : List NamePattern.Chunk) : List Text → Option (List Text)
  | [] => some []
  | name :: rest =>
    match NamePattern.matches? chunks name.bytes, matchingNames? chunks rest with
    | some true, some names => some (name :: names)
    | some false, some names => some names
    | _, _ => none

/-- The paths in a folder whose last component matches. -/
def matching (chunks : List NamePattern.Chunk) (folder : Text) : m (Option (List Text)) := do
  let names ← Host.entries folder
  return (matchingNames? chunks names).map (·.map (Path.join folder))

/-- The paths that match component by component inside some folders. -/
def descend (folders : List Text) : List (List NamePattern.Chunk) → m (Option (List Text))
  | [] => return some folders
  | chunks :: rest => do
    let found ← folders.mapM (matching chunks)
    match found.mapM id with
    | none => return none
    | some paths => descend paths.flatten rest

/-- The path of leading components; none at all are the folder in which the program runs. -/
def leadingFolder (path : Text) (leading : List Text) : Text :=
  if leading.isEmpty then "."
  else if leading.length = 1 && Path.isAbsolute path then "/"
  else Text.join "/" leading

/-- The number of components, from the first special one on, that a pattern cannot exceed. -/
def maxPatterns : Nat := 10000

/-- The paths that match a cleaned pattern, or nothing if it is malformed.  Components in front of
the first special one are taken as they are.  Neither the pattern nor what remains of it without
its last components may start with a malformed chunk, whatever files there are. -/
def glob (pattern : Text) : m (Option (List Text)) :=
  let isPlain (component : Text) : Bool := !component.bytes.any NamePattern.isSpecial
  let all := Path.components pattern
  let leading := all.takeWhile isPlain
  let patterns := all.drop leading.length
  let shortened (n : Nat) : Text := Text.join "/" (leading ++ patterns.take (n + 1))
  if maxPatterns < patterns.length ||
      (List.range patterns.length).any (fun n => NamePattern.startsMalformed (shortened n)) then
    return none
  else descend [leadingFolder pattern leading] (patterns.map NamePattern.read)

end Host

end Scriptlet
