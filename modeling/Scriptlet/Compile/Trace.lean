import Scriptlet.Compile.Error
import Scriptlet.Numeral

/-!
# What a compilation does

A compilation reads its tokens once, from left to right, and everything it does on the way is an
`Event`: it emits a statement, calls the handler of a keyword, or takes a note of what it decided.
The listing, the calls and the log are three views of one list of events, so they cannot disagree
about the order of things.

Notes have a level.  A log at some level shows the notes up to it; it is never asked for on the
way, so what is logged cannot change what is compiled.
-/

namespace Scriptlet

/-- A remark on a decision of the compilation. -/
inductive Note where
  /-- A statement starts with this token. -/
  | dispatch (index : Nat) (token : Token)
  | typeSwitch (before after : Text)
  | operatorSwitch (before after : Text)
  /-- A keyword without a handler was passed over. -/
  | ignored (word : Text) (index : Nat)
  | failed (error : SyntaxError)
deriving DecidableEq, Repr

namespace Note

def level : Note → Int
  | dispatch _ _ => 2
  | _ => 1

def message : Note → Text
  | dispatch index token => .concat ["dispatch ", .ofNat index, ": ", token.render]
  | typeSwitch before after => .concat ["type ", before, " -> ", after]
  | operatorSwitch before after => .concat ["operator ", before, " -> ", after]
  | ignored word index => .concat ["ignoring keyword ", word.quoted, " at ", .ofNat index]
  | failed error => "translation failed: " ++ error.message

end Note

inductive Event where
  | emit (statement : Statement)
  | call (word : Text) (head : List Token)
  | note (n : Note)
deriving DecidableEq, Repr

namespace Event

def statement? : Event → Option Statement
  | emit s => some s
  | _ => none

def call? : Event → Option (Text × List Token)
  | call word head => some (word, head)
  | _ => none

def note? : Event → Option Note
  | note n => some n
  | _ => none

end Event

/-- A finished compilation: all that happened, and the error that ended it, if any. -/
structure Compilation where
  events : List Event
  failure : Option SyntaxError
deriving DecidableEq, Repr

namespace Compilation

/-- A compilation that ends in an error; the error is the last thing noted. -/
def fail (events : List Event) (e : SyntaxError) : Compilation :=
  ⟨events ++ [.note (.failed e)], some e⟩

/-- Puts events in front of a compilation. -/
def prepend (c : Compilation) (events : List Event) : Compilation :=
  { c with events := events ++ c.events }

/-- The statements emitted, up to a failure if there is one. -/
def emitted (c : Compilation) : List Statement :=
  c.events.filterMap Event.statement?

/-- The handlers called, each with its word and head. -/
def calls (c : Compilation) : List (Text × List Token) :=
  c.events.filterMap Event.call?

def notes (c : Compilation) : List Note :=
  c.events.filterMap Event.note?

/-- The listing, or the error in its place. -/
def listing (c : Compilation) : Except SyntaxError (List Statement) :=
  match c.failure with
  | none => .ok c.emitted
  | some e => .error e

/-- The lines of the log at a level.  A message of several lines fills several lines of the log. -/
def log (c : Compilation) (level : Int) : List Text :=
  (c.notes.filter (·.level ≤ level)).flatMap fun n => n.message.endLine.splitLines.dropLast

end Compilation

/-- The level that a setting asks for; what is no integer asks for none. -/
def logLevel (setting : Text) : Int :=
  match Numeral.readInt64? setting with
  | some n => n.toInt
  | none => 0

end Scriptlet
