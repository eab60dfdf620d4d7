import Scriptlet.Compile.Keyword
import Scriptlet.Token.Scanner

/-!
# Errors of compilation

The first token that cannot be accepted ends a compilation.  A `SyntaxError` names the token, its
index and the cause; the wording is all in `SyntaxError.message`.  An error at the end of the input
names the last token.
-/

namespace Scriptlet

inductive SyntaxError.Cause where
  /-- A token that no statement starts with. -/
  | illegalStart (token : Token)
  /-- A token of a kind without a meaning. -/
  | unknownToken (token : Token)
  /-- An equals sign that does not follow a name. -/
  | noVariable
  /-- A keyword without a handler, where those are not ignored. -/
  | unsupportedKeyword (word : Text)
  /-- The input ended in the head of a keyword. -/
  | noOpening (word : Text)
  /-- The input ended in the body of a keyword. -/
  | noClosing (word : Text)
  /-- The handler of a keyword refused its head. -/
  | badHead (word : Text) (error : HeadError)
  /-- The input ended inside an expression. -/
  | noTerminator
deriving DecidableEq, Repr

structure SyntaxError where
  token : Token
  index : Nat
  cause : SyntaxError.Cause
deriving DecidableEq, Repr

namespace SyntaxError

/-- Only an expression lacks its terminator; every other error is one of the syntax. -/
def isMissingTerminator (e : SyntaxError) : Bool :=
  e.cause = .noTerminator

def Cause.message : Cause → Text
  | illegalStart t => "illegal start of statement " ++ t.render
  | unknownToken t => "unknown token " ++ t.render
  | noVariable => "assignment without a variable"
  | unsupportedKeyword word => "unsupported keyword " ++ word.quoted
  | noOpening word => "missing opening delimiter after " ++ word.quoted
  | noClosing word => "missing closing delimiter for " ++ word.quoted
  | badHead word error => .concat [word, ": ", error.message]
  | noTerminator => "expression reached end of input"

/-- The place by line and column if the token has one, and else by index. -/
def place (e : SyntaxError) : Text :=
  if 0 < e.token.line then
    .concat ["line ", .ofInt e.token.line, ", col ", .ofInt e.token.col]
  else .concat ["token ", .ofNat e.index]

def message (e : SyntaxError) : Text :=
  .concat [e.place, if e.isMissingTerminator then ": missing terminator: " else ": invalid syntax: ",
    e.cause.message]

end SyntaxError

/-- Why a source text does not compile. -/
inductive SourceError where
  | scanning (e : ScanError)
  | parsing (e : SyntaxError)
deriving DecidableEq, Repr

def SourceError.message : SourceError → Text
  | scanning e => "scanning source: " ++ e.message
  | parsing e => e.message

end Scriptlet
