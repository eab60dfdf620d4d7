import Scriptlet.Compile.Basic
import Scriptlet.Files.Host
import Scriptlet.Fixture.Archive

/-!
# Test cases

A test case is an archive with a script, and with the listing or else the error that compiling it
should give.

* `Case.ofArchive` — reads a case.
* `Case.check` — compiles the script and says what is wrong with the outcome, if anything.
* `Case.load`, `Case.loadAll` — a case from a file, and all cases of a folder.
-/

namespace Scriptlet

structure Case where
  name : Text
  comment : Text
  input : Text
  /-- The listing wanted. -/
  want : Text
  /-- The message of the error wanted; if it is empty, none is wanted. -/
  error : Text
deriving DecidableEq, Repr

/-- Why a case cannot be loaded. -/
inductive CaseError where
  | file (e : FileError)
  | unexpectedSection (path name : Text)
  | missingInput (path : Text)
  | badPattern
deriving DecidableEq, Repr

def CaseError.message : CaseError → Text
  | file e => e.message
  | unexpectedSection path name => .concat [path, ": unexpected section ", name.quoted]
  | missingInput path => .concat [path, ": missing input section"]
  | badPattern => "syntax error in pattern"

/-! ## Checking a case -/

/-- A line on which two texts differ; a text that has no such line has an empty one. -/
structure Difference where
  line : Nat
  want : Text
  got : Text
deriving DecidableEq, Repr

namespace Difference

/-- The lines of a text, without the empty one that a newline at the end leaves. -/
def linesOf (t : Text) : List Text :=
  ((t.dropEnd? "\n").getD t).splitLines

/-- Puts a line in front, unless it is the same in both texts. -/
def prepend (d : Difference) (rest : List Difference) : List Difference :=
  if d.want = d.got then rest else d :: rest

/-- Compares line by line from a line number on. -/
def ofLines (line : Nat) : List Text → List Text → List Difference
  | [], [] => []
  | want :: wants, [] => prepend ⟨line, want, ""⟩ (ofLines (line + 1) wants [])
  | [], got :: gots => prepend ⟨line, "", got⟩ (ofLines (line + 1) [] gots)
  | want :: wants, got :: gots => prepend ⟨line, want, got⟩ (ofLines (line + 1) wants gots)

def between (want got : Text) : List Difference :=
  ofLines 1 (linesOf want) (linesOf got)

def render (d : Difference) : Text :=
  .concat [Text.padLeft 4 (.ofNat d.line), ": want ", Text.quotedPadded 16 d.want, " got ",
    d.got.quoted, "\n"]

end Difference

/-- What is wrong with the outcome of a case. -/
inductive Mismatch where
  /-- An error was wanted, and there was none. -/
  | noError (wanted : Text)
  | otherError (wanted : Text) (e : SourceError)
  /-- There was an error, and none was wanted. -/
  | failed (e : SourceError)
  | listing (differences : List Difference)
deriving DecidableEq, Repr

def Mismatch.message : Mismatch → Text
  | noError wanted =>
    .concat ["expected error ", wanted.quoted, " but translation succeeded"]
  | otherError wanted e =>
    .concat ["expected error ", wanted.quoted, " but got ", e.message.quoted]
  | failed e => e.message
  | listing differences => .concat ("listing mismatch:\n" :: differences.map Difference.render)

/-- The listing that a case gave, empty if there is none to show, and what is wrong with it. -/
structure Verdict where
  listing : Text
  mismatch : Option Mismatch
deriving DecidableEq, Repr

namespace Case

/-- The verdict on what compiling the script gave. -/
def judge (c : Case) : Except SourceError (List Statement) → Verdict
  | .error e =>
    if c.error.isEmpty then ⟨"", some (.failed e)⟩
    else if e.message = c.error then ⟨"", none⟩
    else ⟨"", some (.otherError c.error e)⟩
  | .ok statements =>
    let listing := format statements
    if !c.error.isEmpty then ⟨listing, some (.noError c.error)⟩
    else if listing = c.want then ⟨listing, none⟩
    else ⟨listing, some (.listing (Difference.between c.want listing))⟩

def check (c : Case) (d : Dialect) : Verdict :=
  c.judge (d.listing c.input)

/-! ## Loading cases -/

/-- Reads a section into a case.  A section that occurs twice counts as the last one has it. -/
def addSection (path : Text) (c : Case) (s : Archive.Section) : Except CaseError Case :=
  if s.name = "input" then .ok { c with input := s.body }
  else if s.name = "want" then .ok { c with want := s.body }
  else if s.name = "error" then .ok { c with error := s.body.trim }
  else .error (.unexpectedSection path s.name)

/-- The case that an archive at a path holds; it is named after the path. -/
def ofArchive (path : Text) (a : Archive) : Except CaseError Case := do
  let empty : Case := ⟨Path.stem path, a.comment.trim, "", "", ""⟩
  let c ← a.sections.foldlM (addSection path) empty
  if a.sections.any (·.name = "input") then return c else throw (.missingInput path)

variable {m : Type → Type} [Monad m] [Host m]

def load (path : Text) : m (Except CaseError Case) := do
  match ← Host.readFile path with
  | .ok text => return ofArchive path (.parse text)
  | .error e => return .error (.file e)

/-- Loads cases one after the other up to the first that cannot be loaded. -/
def loadEach : List Text → m (Except CaseError (List Case))
  | [] => return .ok []
  | path :: rest => do
    match ← load path with
    | .error e => return .error e
    | .ok c => return (← loadEach rest).map (c :: ·)

/-- The ending of the files that hold cases. -/
def filePattern : Text := "*.txtar"

/-- Loads all cases of a folder, sorted by path. -/
def loadAll (folder : Text) : m (Except CaseError (List Case)) := do
  match ← Host.glob (Path.join folder filePattern) with
  | none => return .error .badPattern
  | some paths => loadEach paths

end Case

end Scriptlet
