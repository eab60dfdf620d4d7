import Scriptlet.Command.Flag
import Scriptlet.Highlight.Style

/-!
# Command lines

A command line names an action, with flags of its own, and flags that every action has.  Flags may
stand before the name of the action too.  The last value given to a flag counts.
-/

namespace Scriptlet

/-- What a command line asks for. -/
inductive Action where
  /-- Write the listing of a script. -/
  | compile (source target : Text)
  /-- Run a script and show its variables. -/
  | exec (file : Text)
  /-- Summarise the listing of a script. -/
  | report (source : Text)
  /-- Colour a script or its listing. -/
  | highlight (source : Text) (listing : Bool) (style : Text)
  /-- Run test cases. -/
  | test (folder file name : Text)
  | help
deriving DecidableEq, Repr

/-- An action and the flags that every action has. -/
structure Invocation where
  action : Action
  strict : Bool
  noColor : Bool
deriving DecidableEq, Repr

/-- The names of the actions. -/
inductive ActionName where
  | compile
  | exec
  | report
  | highlight
  | test
  | help
  | completion
deriving DecidableEq, Repr

namespace ActionName

def name : ActionName → Text
  | compile => "compile"
  | exec => "exec"
  | report => "report"
  | highlight => "highlight"
  | test => "test"
  | help => "help"
  | completion => "completion"

def ofName? (name : Text) : Option ActionName :=
  [compile, exec, report, highlight, test, help, completion].find? (·.name = name)

end ActionName

namespace Flag

/-- A flag that takes a value. -/
def valued (name : Text) (letter : Option Char) : Flag :=
  ⟨name, letter.map (·.toNat.toUInt8), false⟩

def switch (name : Text) (letter : Option Char) : Flag :=
  ⟨name, letter.map (·.toNat.toUInt8), true⟩

def target : Flag := valued "target" 't'
def source : Flag := valued "source" 's'
def file : Flag := valued "file" 'f'
def listing : Flag := switch "listing" 'l'
def style : Flag := valued "style" none
def folder : Flag := valued "dir" 'd'
def caseName : Flag := valued "case" 'c'
def strict : Flag := switch "strict" none
def noColor : Flag := switch "no-color" none
def help : Flag := switch "help" 'h'

/-- The flags that may stand before the name of an action. -/
def shared : List Flag := [strict, noColor]

def ofAction : ActionName → List Flag
  | .compile => [target, source]
  | .exec => [file]
  | .report => [source]
  | .highlight => [source, listing, style]
  | .test => [folder, file, caseName]
  | .help => []
  | .completion => []

end Flag

namespace Setting

/-- The last value given to a flag. -/
def last? (settings : List Setting) (flag : Flag) : Option Text :=
  (settings.reverse.find? (·.flag = flag)).map Setting.value

def lastOr (settings : List Setting) (flag : Flag) (default : Text) : Text :=
  (last? settings flag).getD default

def isOn (settings : List Setting) (flag : Flag) : Bool :=
  ((last? settings flag).bind Flag.readSwitch?).getD false

end Setting

/-- The folder that test cases are looked for in. -/
def Action.defaultFolder : Text := "parser/testdata"

/-- The action that a name and its settings stand for. -/
def Action.ofSettings (name : ActionName) (settings : List Setting) : Action :=
  let value (flag : Flag) : Text := Setting.lastOr settings flag ""
  match name with
  | .compile => .compile (value .source) (value .target)
  | .exec => .exec (value .file)
  | .report => .report (value .source)
  | .highlight =>
    .highlight (value .source) (Setting.isOn settings .listing)
      (Setting.lastOr settings .style Highlight.Style.defaultName)
  | .test => .test (Setting.lastOr settings .folder defaultFolder) (value .file) (value .caseName)
  | .help => .help
  | .completion => .help

namespace Invocation

/-- The invocation of an action with the arguments that remain without its name. -/
def ofFlags (name : ActionName) (args : List Text) : Except UsageError Invocation := do
  let settings ← Flag.parse (Flag.ofAction name ++ Flag.shared ++ [Flag.help]) args
  let action := if Setting.isOn settings .help then .help else .ofSettings name settings
  return ⟨action, Setting.isOn settings .strict, Setting.isOn settings .noColor⟩

/-- Reads a command line.  The first word that is no flag names the action; without one there is
nothing to do but to help. -/
def ofArgs (args : List Text) : Except UsageError Invocation :=
  match Flag.otherWords Flag.shared args with
  | [] => ofFlags .help args
  | word :: _ =>
    match ActionName.ofName? word with
    | some name => ofFlags name (args.erase word)
    | none => .error (.unknownCommand word)

end Invocation

end Scriptlet
