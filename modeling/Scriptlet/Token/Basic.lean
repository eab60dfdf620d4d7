import Scriptlet.Text.Quoted

/-!
# Tokens

A token is a word, number or mark of the script together with its kind and the place where it
stands.  The place serves messages only; a token that was made by hand may leave it out, and then
its line is `0`.

Kinds are numbered.  A number without a meaning is a kind too, `Kind.unknown`: no scanner makes it,
but whoever receives tokens has to say what happens to it.
-/

namespace Scriptlet

inductive Kind where
  | type
  | identifier
  | equals
  | number
  | binaryOperator
  | openDelim
  | closeDelim
  | terminator
  | keyword
  | unknown (code : Int)
deriving DecidableEq, Repr

namespace Kind

/-- The kinds that have a name, in the order of their numbers from `0` on. -/
def named : List Kind :=
  [type, identifier, equals, number, binaryOperator, openDelim, closeDelim, terminator, keyword]

def ofCode : Int → Kind
  | .ofNat n => named[n]?.getD (unknown n)
  | .negSucc n => unknown (.negSucc n)

def name : Kind → Text
  | type => "TYPE"
  | identifier => "IDENTIFIER"
  | equals => "EQUALS"
  | number => "NUMBER"
  | binaryOperator => "BINARY_OPERATOR"
  | openDelim => "OPEN_DELIM"
  | closeDelim => "CLOSE_DELIM"
  | terminator => "TERMINATOR"
  | keyword => "KEYWORD"
  | unknown code => .concat ["Kind(", .ofInt code, ")"]

end Kind

structure Token where
  kind : Kind
  literal : Text
  line : Int := 0
  col : Int := 0
deriving DecidableEq, Repr

/-- A token as messages show it: its kind and its quoted text. -/
def Token.render (t : Token) : Text :=
  .concat [t.kind.name, "[", t.literal.quoted, "]"]

end Scriptlet
