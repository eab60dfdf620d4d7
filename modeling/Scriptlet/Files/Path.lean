import Scriptlet.Text.Basic

/-!
# Paths

A path is a text whose components are separated by slashes.  These functions look at the text of a
path alone, never at files.
-/

namespace Scriptlet.Path

def slash : UInt8 := 47

def components (path : Text) : List Text :=
  path.splitOn slash

/-- A path is absolute if it starts with a slash. -/
def isAbsolute (path : Text) : Bool :=
  path.bytes.head? = some slash

/-- Puts a component behind cleaned ones, which are given in reverse.  Two dots take away the
component before them, and stay only where there is none to take away. -/
def cleanStep (absolute : Bool) (done : List Text) (component : Text) : List Text :=
  if component = "" || component = "." then done
  else if component = ".." then
    match done with
    | [] => if absolute then [] else [component]
    | last :: before => if last = ".." then component :: done else before
  else component :: done

/-- The shortest path of the same meaning, as far as the text tells. -/
def clean (path : Text) : Text :=
  let done := (components path).foldl (cleanStep (isAbsolute path)) []
  let cleaned := Text.join "/" done.reverse
  if isAbsolute path then "/" ++ cleaned else if done.isEmpty then "." else cleaned

/-- A path inside a folder, cleaned.  An empty folder is no folder. -/
def join (folder path : Text) : Text :=
  if folder.isEmpty then (if path.isEmpty then "" else clean path)
  else clean (folder ++ "/" ++ path)

/-- The last component, slashes at the end left aside. -/
def base (path : Text) : Text :=
  if path.isEmpty then "."
  else ((components path).reverse.find? (!·.isEmpty)).getD "/"

/-- What follows the last dot of the last component, with the dot; nothing if there is none. -/
def extension (path : Text) : Text :=
  let last := ((components path).getLast?.getD "").bytes
  let ending := (last.reverse.takeWhile (· ≠ 46)).reverse
  if ending.length = last.length then "" else ⟨46 :: ending⟩

/-- The last component without its extension. -/
def stem (path : Text) : Text :=
  ((base path).dropEnd? (extension path)).getD (base path)

end Scriptlet.Path
