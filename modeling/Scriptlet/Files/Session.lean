import Scriptlet.Files.Host

/-!
# A host in memory

A `Session` is a host whose files are kept in memory: the folder in which a program runs, with all
folders that its files lie in.  It also keeps what was printed and logged.

A path is followed component by component, as a file system does it: each component but the last
has to be a folder, an empty component and a single dot stay where they are, and two dots go up.
The folders above the one in which the program runs exist, and hold nothing that a session knows of.
-/

namespace Scriptlet

/-- Where a file is: the names of the folders that lead to it, and its own.  A place above the folder
in which the program runs starts with two dots for each step up, or with the root. -/
abbrev FileTree.Place := List Text

structure FileTree where
  files : List (FileTree.Place × Text) := []
deriving DecidableEq, Repr

/-- What a path leads to. -/
inductive FileTree.Node where
  | file (text : Text)
  | folder
deriving DecidableEq, Repr

namespace FileTree

/-- The tree with the given files, by path. -/
def ofPaths (files : List (Text × Text)) : FileTree :=
  ⟨files.map fun (path, text) => (Path.components (Path.clean path), text)⟩

/-- The folder above all others. -/
def root : Place := ["/"]

/-- Whether a place is the folder in which the program runs or one above it. -/
def isAbove (place : Place) : Bool :=
  place.all (· = "..") || place = root

/-- The place one step up.  Nothing is above the root. -/
def up (place : Place) : Place :=
  if place = root then root
  else if isAbove place then place ++ [(".." : Text)]
  else place.dropLast

/-- What is at a place.  Every file's leading components are folders. -/
def node? (t : FileTree) (place : Place) : Option Node :=
  match t.files.lookup place with
  | some text => some (.file text)
  | none =>
    if isAbove place || t.files.any (fun (p, _) => place.isPrefixOf p) then some .folder else none

/-- The names in the folder at a place, sorted, each once. -/
def names (t : FileTree) (place : Place) : List Text :=
  let inside := t.files.filterMap fun (p, _) =>
    if place.isPrefixOf p then (p.drop place.length).head? else none
  (inside.mergeSort fun a b => (compare a b).isLE).eraseDups

/-- Why a path leads nowhere. -/
inductive Dead where
  /-- Nothing is there; the last component could be made into a file at a place. -/
  | missing (place : Option Place)
  | notFolder
  | tooLong
  | invalid
deriving DecidableEq, Repr

/-- The error for a path that leads nowhere. -/
def Dead.error (path : Text) : Dead → FileError
  | missing _ => .missing path
  | notFolder => .notFolder path
  | tooLong => .tooLong path
  | invalid => .invalid path

/-- The length that a component of a path cannot exceed. -/
def maxName : Nat := 255

/-- The length that a path cannot exceed. -/
def maxPath : Nat := 4095

/-- Follows components from a place on. -/
def follow (t : FileTree) (place : Place) : List Text → Except Dead Place
  | [] => .ok place
  | component :: rest =>
    match t.node? place with
    | none => .error (.missing none)
    | some (.file _) => .error .notFolder
    | some .folder =>
      if component = "" || component = "." then t.follow place rest
      else if component = ".." then t.follow (up place) rest
      else if maxName < component.bytes.length then .error .tooLong
      else
        let next := place ++ [component]
        if (t.node? next).isNone && rest.isEmpty then .error (.missing (some next))
        else t.follow next rest

/-- Follows a path. -/
def resolve (t : FileTree) (path : Text) : Except Dead Place :=
  if path.bytes.contains 0 then .error .invalid
  else if maxPath < path.bytes.length then .error .tooLong
  else if path.isEmpty then .error (.missing none)
  else t.follow (if Path.isAbsolute path then root else []) (Path.components path)

def read (t : FileTree) (path : Text) : Except FileError Text :=
  match t.resolve path with
  | .error dead => .error (dead.error path)
  | .ok place =>
    match t.node? place with
    | some (.file text) => .ok text
    | some .folder => .error (.isFolder path)
    | none => .error (.missing path)

/-- Puts a text at a place. -/
def put (t : FileTree) (place : Place) (text : Text) : FileTree :=
  ⟨t.files.filter (·.1 ≠ place) ++ [(place, text)]⟩

/-- Writes a file, a new one if the folder for it exists. -/
def write (t : FileTree) (path text : Text) : Except FileError FileTree :=
  match t.resolve path with
  | .error (.missing (some place)) => .ok (t.put place text)
  | .error dead => .error (dead.error path)
  | .ok place =>
    match t.node? place with
    | some (.file _) => .ok (t.put place text)
    | _ => .error (.isFolder path)

def entries (t : FileTree) (path : Text) : List Text :=
  match t.resolve path with
  | .error _ => []
  | .ok place =>
    match t.node? place with
    | some .folder => t.names place
    | _ => []

/-- Whether a place lies in the folder in which the program runs. -/
def isInside (place : Place) : Bool :=
  place.head? ≠ some ".." && place.head? ≠ some "/"

/-- The files inside that another tree does not hold with the same text, by path. -/
def changedSince (t before : FileTree) : List (Text × Text) :=
  let changed := t.files.filter fun (place, text) =>
    isInside place && before.files.lookup place ≠ some text
  changed.map fun (place, text) => (Text.join "/" place, text)

end FileTree

structure Session where
  files : FileTree := {}
  input : Text := ""
  logSetting : Option Text := none
  printed : Text := ""
  logged : List Text := []

instance : Host (StateM Session) where
  print t := modify fun s => { s with printed := s.printed ++ t }
  log lines := modify fun s => { s with logged := s.logged ++ lines }
  logSetting := return (← get).logSetting
  input := return (← get).input
  readFile path := return (← get).files.read path
  writeFile path text := do
    match (← get).files.write path text with
    | .ok files => modify fun s => { s with files }; return .ok ()
    | .error e => return .error e
  entries path := return (← get).files.entries path

end Scriptlet
