import Scriptlet.Text.Trim

/-!
# Archives of texts

Several texts can be kept in one file.  Each has a marker line before it, its name between `-- ` and
` --`, and what stands before the first marker is a comment.  Every line belongs to one text; a
last line without a newline gets one.
-/

namespace Scriptlet

structure Archive.Section where
  name : Text
  body : Text
deriving DecidableEq, Repr

structure Archive where
  comment : Text
  sections : List Archive.Section
deriving DecidableEq, Repr

namespace Archive

/-- The name on a marker line.  A line with nothing but blanks between the dashes is none. -/
def markerName? (line : Text) : Option Text :=
  match line.dropStart? "-- " with
  | none => none
  | some rest =>
    match rest.dropEnd? " --" with
    | none => none
    | some name => if name.trim.isEmpty then none else some name.trim

/-- The text in front of the first marker, and the sections behind it. -/
def ofLines : List Text → Archive
  | [] => ⟨"", []⟩
  | line :: rest =>
    let after := ofLines rest
    match markerName? line with
    | some name => ⟨"", ⟨name, after.comment⟩ :: after.sections⟩
    | none => ⟨line ++ "\n" ++ after.comment, after.sections⟩

def parse (t : Text) : Archive :=
  if t.isEmpty then ⟨"", []⟩ else ofLines t.endLine.splitLines.dropLast

end Archive

end Scriptlet
