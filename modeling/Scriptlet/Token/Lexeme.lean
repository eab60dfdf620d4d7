import Scriptlet.Token.Basic

/-!
# Lexemes

What stands at the front of the remaining source, and how far it reaches:

* a blank character, or a comment from two slashes up to the end of its line: a gap,
* a word, which is as long as letters, digits and underscores go on,
* a number: digits, and after a point at least one digit more,
* one of the marks of the language, two characters long if possible.

Everything else is a fault.  So is a number whose point has no digit after it; there the point is
what is wrong, not the digits before it, so a fault reaches up to the character at fault.
-/

namespace Scriptlet

/-- What stands at the front of the source. -/
inductive Shape where
  | gap
  | token (kind : Kind)
  | fault
deriving DecidableEq, Repr

/-- A shape and the number of characters beyond the first that belong to it. -/
structure Lexeme where
  shape : Shape
  more : Nat
deriving DecidableEq, Repr

namespace Lexeme

def typeWords : List String := ["int", "float", "bool"]

def keywordWords : List String := ["if", "else", "while"]

/-- Words that are written like names and stand for a value. -/
def literalWords : List String := ["true", "false"]

/-- The marks of the language. -/
def marks : List (String × Kind) := [
  ("=", .equals),
  ("==", .binaryOperator), ("!=", .binaryOperator),
  ("<", .binaryOperator), ("<=", .binaryOperator),
  (">", .binaryOperator), (">=", .binaryOperator),
  ("+", .binaryOperator), ("-", .binaryOperator), ("*", .binaryOperator),
  ("/", .binaryOperator), ("%", .binaryOperator),
  ("&&", .binaryOperator), ("||", .binaryOperator),
  ("\x7b", .openDelim), ("\x7d", .closeDelim), (";", .terminator)]

def startsWord (c : Char) : Bool :=
  isLetter c || c = '_'

def continuesWord (c : Char) : Bool :=
  isLetter c || isDigit c || c = '_'

def wordKind (word : List Char) : Kind :=
  let w := String.ofList word
  if w ∈ typeWords then .type
  else if w ∈ keywordWords then .keyword
  else if w ∈ literalWords then .number
  else .identifier

/-- The number that starts with a digit in front of `rest`. -/
def number (rest : List Char) : Lexeme :=
  let whole := (rest.takeWhile isDigit).length
  match rest.dropWhile isDigit with
  | '.' :: after =>
    let fraction := (after.takeWhile isDigit).length
    if fraction = 0 then ⟨.fault, whole + 1⟩ else ⟨.token .number, whole + 1 + fraction⟩
  | _ => ⟨.token .number, whole⟩

/-- The kind of the two-character mark at the front, if there is one. -/
def pairKind? (c : Char) : List Char → Option Kind
  | [] => none
  | d :: _ => marks.lookup (String.ofList [c, d])

/-- The mark that starts with `c`; a mark of two characters wins over one of a single one. -/
def mark (c : Char) (rest : List Char) : Lexeme :=
  match pairKind? c rest with
  | some kind => ⟨.token kind, 1⟩
  | none =>
    match marks.lookup (String.ofList [c]) with
    | some kind => ⟨.token kind, 0⟩
    | none => ⟨.fault, 0⟩

/-- The lexeme that starts with `c` when `rest` follows. -/
def front (c : Char) (rest : List Char) : Lexeme :=
  if isBlank c then ⟨.gap, 0⟩
  else if c = '/' && rest.head? = some '/' then ⟨.gap, (rest.takeWhile (· ≠ '\n')).length⟩
  else if startsWord c then
    let word := rest.takeWhile continuesWord
    ⟨.token (wordKind (c :: word)), word.length⟩
  else if isDigit c then number rest
  else mark c rest

end Lexeme

end Scriptlet
