import Scriptlet.Text.Basic

/-!
# Statements

A script compiles to a listing: a flat list of statements, each a mnemonic with at most one
operand.  Three of them are markers that set a mode for what follows (scope, type, operator), so a
listing names a mode only where it changes; two open a block and one closes it.

* `Statement.mnemonic`, `Statement.operand` — the two parts of a statement.
* `Statement.ofParts?` — the statement with given parts.
* `Statement.render`, `format` — a statement as a line, and a listing as text.
-/

namespace Scriptlet

inductive Statement where
  /-- Names are looked up and declared in this scope from here on. -/
  | scope (name : Text)
  /-- Variables are declared with this type from here on. -/
  | type (name : Text)
  /-- Values are combined with this operator from here on. -/
  | operator (op : Text)
  /-- Binds a name to a new variable. -/
  | declare (name : Text)
  /-- Makes a variable the target of what follows. -/
  | load (name : Text)
  /-- Sets the target to the zero of its type; the operand is for the reader only. -/
  | clear (literal : Text)
  /-- Combines the target with a literal. -/
  | push (literal : Text)
  /-- Combines the target with the value of a variable. -/
  | get (name : Text)
  /-- Closes the innermost block. -/
  | endBlock
  /-- Puts a literal or the value of a variable on the condition stack. -/
  | test (operand : Text)
  /-- Replaces the two topmost conditions by the result of comparing them. -/
  | compare (op : Text)
  /-- Takes a condition and passes over the block that it opens if the condition is false. -/
  | branch
  /-- Opens a block without a condition. -/
  | beginBlock
deriving DecidableEq, Repr

namespace Statement

def mnemonic : Statement → Text
  | scope _ => "scope"
  | type _ => "type"
  | operator _ => "op"
  | declare _ => "var"
  | load _ => "load"
  | clear _ => "set"
  | push _ => "push"
  | get _ => "get"
  | endBlock => "end"
  | test _ => "test"
  | compare _ => "cmp"
  | branch => "branch"
  | beginBlock => "begin"

/-- The operand, empty for the statements that have none. -/
def operand : Statement → Text
  | scope name => name
  | type name => name
  | operator op => op
  | declare name => name
  | load name => name
  | clear literal => literal
  | push literal => literal
  | get name => name
  | endBlock => ""
  | test operand => operand
  | compare op => op
  | branch => ""
  | beginBlock => ""

/-- The statement with the given mnemonic and operand.  An operand too many is dropped. -/
def ofParts? (mnemonic operand : Text) : Option Statement :=
  [scope operand, type operand, operator operand, declare operand, load operand, clear operand,
    push operand, get operand, endBlock, test operand, compare operand, branch, beginBlock].find?
    (·.mnemonic = mnemonic)

/-- Whether a later `endBlock` closes what this statement opens. -/
def opensBlock : Statement → Bool
  | branch => true
  | beginBlock => true
  | _ => false

/-- A statement as a line of a listing; an empty operand is left out. -/
def render (s : Statement) : Text :=
  if s.operand.isEmpty then s.mnemonic else .concat [s.mnemonic, " ", s.operand]

end Statement

/-- A listing as text, one statement per line. -/
def format (listing : List Statement) : Text :=
  .concat (listing.map fun s => s.render ++ "\n")

end Scriptlet
