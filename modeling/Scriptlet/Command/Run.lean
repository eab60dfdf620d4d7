import Scriptlet.Command.Basic
import Scriptlet.Fixture.Case
import Scriptlet.Machine.Basic
import Scriptlet.Summary

/-!
# Running a command

`Invocation.run` carries out what a command line asks for, through a host, and says whether it went
well.  Output is coloured if the host has colours and the command line does not forbid them: errors
and failures are red, successes green.
-/

namespace Scriptlet

/-- Whether a command went well. -/
inductive Exit where
  | success
  | failure
deriving DecidableEq, Repr

/-- The two colours of messages. -/
inductive Paint where
  | red
  | green
deriving DecidableEq, Repr

namespace Paint

def code : Paint → Nat
  | red => 31
  | green => 32

/-- A text in a colour, if colours are on. -/
def apply (p : Paint) (color : Bool) (t : Text) : Text :=
  if color then .concat [Highlight.Formatter.escape p.code, t, Highlight.Formatter.escape 0] else t

end Paint

namespace Command

variable {m : Type → Type} [Monad m] [Host m]

/-- The dialect that a command line asks for. -/
def dialect (strict : Bool) : Dialect :=
  { Dialect.standard with strict }

/-- Prints a message in red and gives up. -/
def fail (color : Bool) (message : Text) : m Exit := do
  Host.print (Paint.red.apply color (message ++ "\n"))
  return .failure

/-- Compiles a source text and logs what the host wants to know of it. -/
def compileLogged (d : Dialect) (source : Text) : m (Except SourceError (List Statement)) := do
  let level := ((← Host.logSetting).map logLevel).getD 0
  Host.log (d.log level source)
  return d.listing source

/-- Compiles a file and goes on with its listing, unless there is an error to show. -/
def withListing (color : Bool) (d : Dialect) (path : Text) (next : List Statement → m Exit) :
    m Exit := do
  match ← Host.source path with
  | .error e => fail color e.message
  | .ok source =>
    match ← compileLogged d source with
    | .error e => fail color e.message
    | .ok listing => next listing

/-- Writes a listing to a file, or prints it if no file is named. -/
def compile (color : Bool) (d : Dialect) (source target : Text) : m Exit :=
  withListing color d source fun listing => do
    if target.isEmpty then
      Host.print (format listing)
      return .success
    else
      match ← Host.writeFile target (format listing) with
      | .ok () => return .success
      | .error _ => return .failure

/-- What is shown of a run that failed. -/
def runFailure (listing : List Statement) (e : RuntimeError) : Text :=
  .concat ["Execution failed for listing:\n------\n", format listing, "------\nError: ", e.message]

/-- Runs a script and prints its variables. -/
def exec (color : Bool) (d : Dialect) (file : Text) : m Exit := do
  if file.isEmpty then
    Host.print (Paint.green.apply color "Input your program and execute with Ctrl-D.\n")
  withListing color d file fun listing => do
    let run := Machine.new.run listing
    match run.error with
    | some e => fail color (runFailure listing e)
    | none =>
      Host.print (Paint.green.apply color "--------------------\n")
      Host.print run.machine.dump
      return .success

def report (color : Bool) (d : Dialect) (source : Text) : m Exit :=
  withListing color d source fun listing => do
    Host.print (Summary.ofListing listing).render
    return .success

/-- Prints a text in colours, or plain if colours are off. -/
def printColoured (color : Bool) (style : Text) (g : Highlight.Grammar) (t : Text) : m Exit := do
  let formatter : Highlight.Formatter := if color then .terminal else .plain
  Host.print (Highlight.render formatter (.ofName style) g t)
  return .success

/-- Colours a script or its listing. -/
def highlight (color : Bool) (d : Dialect) (source : Text) (listing : Bool) (style : Text) :
    m Exit := do
  if listing then
    withListing color d source fun listing => printColoured color style .listing (format listing)
  else
    match ← Host.source source with
    | .error e => fail color e.message
    | .ok text => printColoured color style .source text

/-! ## Test cases -/

/-- Runs one case and says whether it passed.  A case without a script fails. -/
def runCase (color : Bool) (d : Dialect) (c : Case) : m Bool := do
  Host.print (.concat ["Running test '", c.name, "': "])
  if c.input.isEmpty then
    Host.print (Paint.red.apply color "FAIL\n    \n")
    Host.print (Paint.red.apply color "No source detected\n")
    return false
  else
    let verdict := c.judge (← compileLogged d c.input)
    match verdict.mismatch with
    | some mismatch =>
      Host.print (Paint.red.apply color (.concat ["FAIL\n\n", mismatch.message,
        "\nTranslation:\n------------\n", verdict.listing, "\n"]))
      return false
    | none =>
      Host.print (Paint.green.apply color "PASS\n")
      return true

/-- The numbers of passes and failures. -/
def tally (results : List Bool) : Text :=
  .concat ["\n", .ofNat (results.countP (· = true)), " passing tests, ",
    .ofNat (results.countP (· = false)), " failures\n"]

/-- Runs cases, or the one with a name. -/
def runCases (color : Bool) (d : Dialect) (name : Text) (cases : List Case) : m Exit := do
  let chosen := if name.isEmpty then cases else cases.filter (·.name = name)
  let results ← chosen.mapM (runCase color d)
  if !name.isEmpty && chosen.isEmpty then
    fail color ("could not find test: " ++ name)
  else if results.all (· = true) then
    Host.print (Paint.green.apply color (tally results))
    return .success
  else
    Host.print (Paint.red.apply color (tally results))
    return .failure

/-- Loads the cases of a folder, or the one in a file of it. -/
def loadCases (folder file : Text) : m (Except CaseError (List Case)) :=
  if file.isEmpty then Case.loadAll folder
  else (Except.map fun c => [c]) <$> Case.load (Path.join folder file)

/-- Loads and runs cases. -/
def test (color : Bool) (d : Dialect) (folder file name : Text) : m Exit := do
  match ← loadCases folder file with
  | .error e => fail color e.message
  | .ok cases => runCases color d name cases

/-- What there is to say about the commands. -/
def usage : Text :=
  .concat [
    "Scripts and their statement listings.\n\n",
    "  compile    Write the listing of a script\n",
    "  exec       Run a script and show its variables\n",
    "  report     Summarise the listing of a script\n",
    "  highlight  Colour a script or its listing\n",
    "  test       Run test cases\n"]

end Command

/-- Carries out a command line; `color` tells whether the host has colours. -/
def Invocation.run {m : Type → Type} [Monad m] [Host m] (i : Invocation) (color : Bool) :
    m Exit :=
  let color := color && !i.noColor
  let d := Command.dialect i.strict
  match i.action with
  | .compile source target => Command.compile color d source target
  | .exec file => Command.exec color d file
  | .report source => Command.report color d source
  | .highlight source listing style => Command.highlight color d source listing style
  | .test folder file name => Command.test color d folder file name
  | .help => do
    Host.print Command.usage
    return .success

end Scriptlet
