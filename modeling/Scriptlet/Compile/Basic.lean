import Scriptlet.Compile.Trace

/-!
# Compilation

The compiler reads tokens one at a time and never goes back.  Between two tokens it knows

* the modes in force: the type of declarations and the operator that combines values,
* its place: at a statement, inside an expression, or in the head of a keyword,
* the keywords whose blocks are open, innermost first,
* the token before, because an equals sign assigns to the name right in front of it.

`Dialect.step` is what it does at a token, `State.finish` what it says at the end of the input, and
`Dialect.compile` the whole run.

| at a statement | becomes |
|---|---|
| a type | `type T`, unless `T` is in force |
| a name `x` | `var x` |
| `=` after `x` | `load x`, then `set 0` or `set false`, then `op +` unless it is in force or the type is `bool` |
| a keyword | the statements of its handler, `begin` unless one of them opens a block, its body, `end` |

| in an expression | becomes |
|---|---|
| a number | `push n` |
| a name | `get x` |
| an operator | `op o`, unless `o` is in force |
| `;` | nothing: the expression ends |
-/

namespace Scriptlet

/-- A choice of keywords, and what happens to a keyword without a handler. -/
structure Dialect where
  keywords : Keywords := .standard
  /-- Whether a keyword without a handler is an error; else it is passed over. -/
  strict : Bool := false

namespace Dialect

/-- The language as it comes. -/
def standard : Dialect := ⟨.standard, false⟩

/-- Gives a word a handler, in place of the one that it may have. -/
def withKeyword (d : Dialect) (word : Text) (handler : Handler) : Dialect :=
  { d with keywords := d.keywords.insert word handler }

end Dialect

/-! ## Modes -/

/-- The modes that a listing marks only where they change. -/
structure Modes where
  type : Text
  operator : Text
deriving DecidableEq, Repr

namespace Modes

def defaultScope : Text := "global"
def defaultType : Text := "int"
def defaultOperator : Text := "+"

def initial : Modes := ⟨defaultType, defaultOperator⟩

/-- The markers at the head of every listing. -/
def opening : List Event :=
  [.emit (.scope defaultScope), .emit (.type defaultType), .emit (.operator defaultOperator)]

def setType (m : Modes) (type : Text) : Modes × List Event :=
  if type = m.type then (m, [])
  else ({ m with type }, [.note (.typeSwitch m.type type), .emit (.type type)])

def setOperator (m : Modes) (operator : Text) : Modes × List Event :=
  if operator = m.operator then (m, [])
  else ({ m with operator },
    [.note (.operatorSwitch m.operator operator), .emit (.operator operator)])

/-- An expression starts with the default operator, except that `bool` keeps the one in force. -/
def startExpression (m : Modes) : Modes × List Event :=
  if m.type = "bool" then (m, []) else m.setOperator defaultOperator

/-- The zero that an assignment shows for the type in force. -/
def zeroLiteral (m : Modes) : Text :=
  if m.type = "int" || m.type = "float" then "0" else "false"

end Modes

/-! ## The state between two tokens -/

namespace Compile

inductive Place where
  | statement
  /-- Inside an expression; `begun` tells whether any token of it was read. -/
  | expression (begun : Bool)
  /-- In the head of a keyword, with the tokens of the head so far. -/
  | head (handler : Handler) (keyword : Token) (index : Nat) (tokens : List Token)

structure State where
  /-- How many tokens were read. -/
  index : Nat := 0
  previous : Option Token := none
  modes : Modes := .initial
  place : Place := .statement
  /-- The keywords of the open blocks, innermost first. -/
  blocks : List Text := []

/-- What one token leads to. -/
structure Step where
  events : List Event
  next : Except SyntaxError State

namespace State

def initial : State := {}

/-- The state behind a token, in all else the same. -/
def read (s : State) (t : Token) : State :=
  { s with index := s.index + 1, previous := some t }

/-- The last token read.  Before any token an error cannot arise. -/
def lastToken (s : State) : Token :=
  s.previous.getD ⟨.type, "", 0, 0⟩

/-- The error that the end of the input is, unless a statement may start here. -/
def finish (s : State) : Option SyntaxError :=
  match s.place, s.blocks with
  | .statement, [] => none
  | .statement, word :: _ => some ⟨s.lastToken, s.index, .noClosing word⟩
  | .expression begun, _ =>
    some ⟨s.lastToken, if begun then s.index - 1 else s.index, .noTerminator⟩
  | .head _ keyword _ _, _ => some ⟨s.lastToken, s.index, .noOpening keyword.literal⟩

end State

/-! ## One token -/

namespace Step

/-- Refuses the token at which the state stands. -/
def refuse (s : State) (t : Token) (cause : SyntaxError.Cause) : Step :=
  ⟨[], .error ⟨t, s.index, cause⟩⟩

/-- An equals sign at a statement. -/
def assign (s : State) (t : Token) : Step :=
  match s.previous with
  | some ⟨.identifier, name, _, _⟩ =>
    let (modes, switch) := s.modes.startExpression
    ⟨.emit (.load name) :: .emit (.clear s.modes.zeroLiteral) :: switch,
      .ok { s.read t with modes, place := .expression false }⟩
  | _ => refuse s t .noVariable

/-- A token inside an expression. -/
def expression (s : State) (t : Token) : Step :=
  match t.kind with
  | .terminator => ⟨[], .ok { s.read t with place := .statement }⟩
  | .number => ⟨[.emit (.push t.literal)], .ok { s.read t with place := .expression true }⟩
  | .identifier => ⟨[.emit (.get t.literal)], .ok { s.read t with place := .expression true }⟩
  | .binaryOperator =>
    let (modes, switch) := s.modes.setOperator t.literal
    ⟨switch, .ok { s.read t with modes, place := .expression true }⟩
  | _ => ⟨[], .ok { s.read t with place := .expression true }⟩

/-- The statements of a handler, with a block opened behind them if they open none. -/
def openBody (statements : List Statement) : List Statement :=
  if statements.any Statement.opensBlock then statements else statements ++ [.beginBlock]

/-- A token in the head of a keyword. -/
def head (s : State) (t : Token) (handler : Handler) (keyword : Token) (index : Nat)
    (tokens : List Token) : Step :=
  if t.kind = .openDelim then
    let call := Event.call keyword.literal tokens
    match handler tokens with
    | .error e => ⟨[call], .error ⟨keyword, index, .badHead keyword.literal e⟩⟩
    | .ok statements =>
      ⟨call :: (openBody statements).map .emit,
        .ok { s.read t with place := .statement, blocks := keyword.literal :: s.blocks }⟩
  else ⟨[], .ok { s.read t with place := .head handler keyword index (tokens ++ [t]) }⟩

end Step

end Compile

namespace Dialect

open Compile

/-- A keyword at a statement. -/
def keyword (d : Dialect) (s : State) (t : Token) : Step :=
  match d.keywords[t.literal]? with
  | some handler => ⟨[], .ok { s.read t with place := .head handler t s.index [] }⟩
  | none =>
    if d.strict then .refuse s t (.unsupportedKeyword t.literal)
    else ⟨[.note (.ignored t.literal s.index)], .ok (s.read t)⟩

/-- A token that starts a statement. -/
def start (d : Dialect) (s : State) (t : Token) : Step :=
  match t.kind with
  | .type =>
    let (modes, switch) := s.modes.setType t.literal
    ⟨switch, .ok { s.read t with modes }⟩
  | .identifier => ⟨[.emit (.declare t.literal)], .ok (s.read t)⟩
  | .equals => .assign s t
  | .keyword => d.keyword s t
  | .unknown _ => .refuse s t (.unknownToken t)
  | _ => .refuse s t (.illegalStart t)

/-- A token at a statement: a closing delimiter ends the innermost open block, everything else
starts a statement and is noted. -/
def statement (d : Dialect) (s : State) (t : Token) : Step :=
  match t.kind, s.blocks with
  | .closeDelim, _ :: outer => ⟨[.emit .endBlock], .ok { s.read t with blocks := outer }⟩
  | _, _ =>
    let step := d.start s t
    { step with events := .note (.dispatch s.index t) :: step.events }

def step (d : Dialect) (s : State) (t : Token) : Step :=
  match s.place with
  | .statement => d.statement s t
  | .expression _ => .expression s t
  | .head handler keyword index tokens => .head s t handler keyword index tokens

/-! ## The whole run -/

def compileFrom (d : Dialect) (s : State) : List Token → Compilation
  | [] =>
    match s.finish with
    | none => ⟨[], none⟩
    | some e => .fail [] e
  | t :: rest =>
    match d.step s t with
    | ⟨events, .ok next⟩ => (d.compileFrom next rest).prepend events
    | ⟨events, .error e⟩ => .fail events e

/-- Compiles tokens.  Whatever they are, the listing opens with the default modes. -/
def compile (d : Dialect) (tokens : List Token) : Compilation :=
  (d.compileFrom .initial tokens).prepend Modes.opening

/-- Scans a source text and compiles its tokens. -/
def compileSource (d : Dialect) (source : Text) : Except ScanError Compilation :=
  match scan source with
  | .ok tokens => .ok (d.compile tokens)
  | .error e => .error e

/-- The listing of a source text. -/
def listing (d : Dialect) (source : Text) : Except SourceError (List Statement) :=
  match d.compileSource source with
  | .ok c => c.listing.mapError .parsing
  | .error e => .error (.scanning e)

/-- The lines that the compilation of a source text logs at a level. -/
def log (d : Dialect) (level : Int) (source : Text) : List Text :=
  match d.compileSource source with
  | .ok c => c.log level
  | .error _ => []

end Dialect

end Scriptlet
