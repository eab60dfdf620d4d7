import Scriptlet.Text.Basic

/-!
# Flags

Arguments of a command line are flags and other words.  A flag has a name behind two dashes, and
some flags also have a letter behind one dash.  A switch is on or off, every other flag takes a
value.

* A value follows its flag as the next argument, or behind an equals sign; behind a letter it may
  also follow at once.  A switch without a value is switched on, and takes a value only behind an
  equals sign.
* Several letters may share one dash; all but the last have to be switches.
* Two dashes alone end the flags.

Main definitions: `Flag.parse`, which reads the flags of a command, and `Flag.otherWords`, which
finds the words that are neither flags nor their values before the command is known.
-/

namespace Scriptlet

structure Flag where
  name : Text
  letter : Option UInt8
  isSwitch : Bool
deriving DecidableEq, Repr

/-- Why a command line cannot be understood. -/
inductive UsageError where
  | unknownCommand (name : Text)
  | unknownFlag (arg : Text)
  | badSyntax (arg : Text)
  | missingValue (arg : Text)
  | badValue (flag value : Text)
deriving DecidableEq, Repr

def UsageError.message : UsageError → Text
  | unknownCommand name => "unknown command: " ++ name
  | unknownFlag arg => "unknown flag: " ++ arg
  | badSyntax arg => "bad flag syntax: " ++ arg
  | missingValue arg => "flag needs an argument: " ++ arg
  | badValue flag value => .concat ["invalid argument ", value, " for --", flag]

/-- A flag and the value given to it. -/
structure Setting where
  flag : Flag
  value : Text
deriving DecidableEq, Repr

namespace Flag

def dash : UInt8 := 45
def equals : UInt8 := 61

/-- The value of a switch that is given none. -/
def switchedOn : Text := "true"

/-- Reads the value of a switch. -/
def readSwitch? (value : Text) : Option Bool :=
  if value ∈ (["1", "t", "T", "TRUE", "true", "True"] : List Text) then some true
  else if value ∈ (["0", "f", "F", "FALSE", "false", "False"] : List Text) then some false
  else none

/-- What a single argument says. -/
inductive Reading where
  /-- It is no flag. -/
  | word
  /-- No flags follow. -/
  | stop
  | settings (given : List Setting)
  /-- The last of its flags takes the next argument as its value. -/
  | awaits (given : List Setting) (flag : Flag)
  | bad (e : UsageError)
deriving DecidableEq, Repr

/-- Puts a setting in front of those of a reading. -/
def Reading.prepend (s : Setting) : Reading → Reading
  | settings given => settings (s :: given)
  | awaits given flag => awaits (s :: given) flag
  | reading => reading

/-- The start of a group of letters that is meant for whoever runs tests. -/
def testMark : Text := "test."

/-- Reads the letters behind a single dash. -/
def readLetters (flags : List Flag) (arg : Text) : List UInt8 → Reading
  | [] => .settings []
  | letter :: rest =>
    if testMark.bytes.isPrefixOf (letter :: rest) then .settings []
    else
      match flags.find? (·.letter = some letter) with
      | none => .bad (.unknownFlag arg)
      | some flag =>
        if rest.head? = some equals && 1 < rest.length then .settings [⟨flag, ⟨rest.drop 1⟩⟩]
        else if flag.isSwitch then (readLetters flags arg rest).prepend ⟨flag, switchedOn⟩
        else if rest.isEmpty then .awaits [] flag
        else .settings [⟨flag, ⟨rest⟩⟩]

/-- Reads what stands behind two dashes. -/
def readName (flags : List Flag) (arg : Text) (bytes : List UInt8) : Reading :=
  let name := bytes.takeWhile (· ≠ equals)
  if name.isEmpty || name.head? = some dash then .bad (.badSyntax arg)
  else
    match flags.find? (·.name = ⟨name⟩) with
    | none => .bad (.unknownFlag arg)
    | some flag =>
      if name.length < bytes.length then .settings [⟨flag, ⟨bytes.drop (name.length + 1)⟩⟩]
      else if flag.isSwitch then .settings [⟨flag, switchedOn⟩]
      else .awaits [] flag

def read (flags : List Flag) (arg : Text) : Reading :=
  match arg.bytes with
  | a :: b :: rest =>
    if a ≠ dash then .word
    else if b ≠ dash then readLetters flags arg (b :: rest)
    else if rest.isEmpty then .stop
    else readName flags arg rest
  | _ => .word

/-- A setting, if its value suits its flag. -/
def check (s : Setting) : Except UsageError Unit :=
  if s.flag.isSwitch && (readSwitch? s.value).isNone then .error (.badValue s.flag.name s.value)
  else .ok ()

/-- Reads all settings of a command line.  Words that are no flags are passed over. -/
def readAll (flags : List Flag) : List Text → Except UsageError (List Setting)
  | [] => .ok []
  | arg :: rest =>
    match read flags arg with
    | .word => readAll flags rest
    | .stop => .ok []
    | .settings given => (readAll flags rest).map (given ++ ·)
    | .awaits given flag =>
      match rest with
      | [] => .error (.missingValue arg)
      | value :: rest => (readAll flags rest).map (given ++ ⟨flag, value⟩ :: ·)
    | .bad e => .error e

/-- Reads all settings and checks their values. -/
def parse (flags : List Flag) (args : List Text) : Except UsageError (List Setting) := do
  let settings ← readAll flags args
  settings.forM check
  return settings

/-- Whether an argument is taken for a flag whose value is the next argument.  Every flag is that
is not known to be a switch. -/
def awaitsValue (flags : List Flag) (arg : Text) : Bool :=
  match arg.bytes with
  | a :: b :: rest =>
    if a ≠ dash || equals ∈ arg.bytes then false
    else if b = dash then !flags.any fun f => f.isSwitch && f.name = ⟨rest⟩
    else rest.isEmpty && !flags.any fun f => f.isSwitch && f.letter = some b
  | _ => false

/-- The words that are neither flags nor taken for their values.  At a flag whose value would be
the last argument the search ends. -/
def otherWords (flags : List Flag) : List Text → List Text
  | [] => []
  | arg :: rest =>
    if arg = "--" then []
    else if awaitsValue flags arg then
      match rest with
      | _ :: next :: rest => otherWords flags (next :: rest)
      | _ => []
    else if arg.isEmpty || arg.bytes.head? = some dash then otherWords flags rest
    else arg :: otherWords flags rest

end Flag

end Scriptlet
