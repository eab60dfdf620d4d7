import Scriptlet.Text.CharClass
import Scriptlet.Text.Glyph

/-!
# Rules for colouring

Coloured text is cut into pieces, each with a `Tint` that says what it is.  A grammar is a list of
rules.  At each position the first rule that matches there decides, and it decides by the
characters from there on and by the one before, since a word may have to start at a boundary.

There are two grammars, `Grammar.source` for scripts and `Grammar.listing` for listings.  Colouring
never refuses a text: what no rule knows is a piece of one character with the tint `error`.

**What is assumed.**  The rules are regular expressions for chroma, which applies them with an
engine of its own.  Neither is described here beyond what the following definitions take for granted:

* `tokenise` — chroma first makes every line end in a bare newline, and reads bytes that encode no
  character as U+FFFD,
* `Grammar.firstMatch?` — at each position the first rule that matches there wins, even if a later
  one matches more; `Pattern.any` — the same holds of the alternatives within a rule,
* `Pattern.run`, `Pattern.number`, `Pattern.identifier` — a repetition takes as many characters as
  it can,
* `isBlank` — `\s` are the characters with the `White_Space` property, and `\S` all others;
  `Rule.stray` — a point stands for every character but the newline,
* `Pattern.word` — `\b` is a place between a character with `isWordChar` and one without it, and the
  character before the position counts,
* `pieces` — where no rule matches, one character is passed over with the tint `error`.
-/

namespace Scriptlet.Highlight

/-- What a piece of text is. -/
inductive Tint where
  | text
  | comment
  | keywordType
  | keyword
  | constant
  | number
  | name
  | operator
  | punctuation
  | error
deriving DecidableEq, Repr

/-- The length of the match at the front of the characters, if there is one.  The character before
them, if any, comes first. -/
abbrev Pattern := Option Char → List Char → Option Nat

namespace Pattern

/-- A number of characters, unless it is none. -/
def atLeastOne (n : Nat) : Option Nat :=
  if n = 0 then none else some n

/-- As many characters of a kind as there are, at least one. -/
def run (p : Char → Bool) : Pattern := fun _ cs =>
  atLeastOne (cs.takeWhile p).length

/-- One character of a kind. -/
def one (p : Char → Bool) : Pattern
  | _, c :: _ => if p c then some 1 else none
  | _, [] => none

/-- A given string. -/
def string (s : String) : Pattern := fun _ cs =>
  if s.toList.isPrefixOf cs then some s.length else none

/-- The first of several patterns that matches. -/
def any (ps : List Pattern) : Pattern := fun before cs =>
  ps.findSome? fun p => p before cs

/-- Two slashes and the rest of the line. -/
def lineComment : Pattern
  | _, '/' :: '/' :: rest => some ((rest.takeWhile (· ≠ '\n')).length + 2)
  | _, _ => none

/-- Whether there is a character and it belongs to a word. -/
def isInWord (c : Option Char) : Bool :=
  (c.map isWordChar).getD false

/-- A given word that is no part of a longer one: neither of its neighbours belongs to a word. -/
def word (w : String) : Pattern := fun before cs =>
  if w.toList.isPrefixOf cs && !isInWord before && !isInWord (cs.drop w.length).head? then
    atLeastOne w.length
  else none

def words (ws : List String) : Pattern :=
  any (ws.map word)

def isAsciiDigit (c : Char) : Bool :=
  '0' ≤ c && c ≤ '9'

def isAsciiLetter (c : Char) : Bool :=
  ('A' ≤ c && c ≤ 'Z') || ('a' ≤ c && c ≤ 'z')

/-- ASCII digits, and after a point more of them. -/
def number : Pattern := fun _ cs =>
  let whole := (cs.takeWhile isAsciiDigit).length
  match cs.drop whole with
  | '.' :: rest =>
    let fraction := (rest.takeWhile isAsciiDigit).length
    atLeastOne (if whole = 0 || fraction = 0 then whole else whole + 1 + fraction)
  | _ => atLeastOne whole

/-- An ASCII letter or underscore, and then also digits. -/
def identifier : Pattern
  | _, c :: rest =>
    if isAsciiLetter c || c = '_' then
      some ((rest.takeWhile fun d => isAsciiLetter d || isAsciiDigit d || d = '_').length + 1)
    else none
  | _, [] => none

end Pattern

structure Rule where
  pattern : Pattern
  tint : Tint

abbrev Grammar := List Rule

/-! ## The rules -/

def typeWords : List String := ["int", "float", "bool"]

def keywordWords : List String := ["if", "else", "while"]

def constantWords : List String := ["true", "false"]

/-- The words that the statements of a listing start with. -/
def mnemonicWords : List String :=
  ["scope", "type", "op", "var", "load", "set", "push", "get", "test", "cmp", "branch", "begin",
    "end"]

/-- The operators of two characters. -/
def pairMarks : List String := ["==", "!=", "<=", ">=", "&&", "||"]

/-- The operators of one character. -/
def operatorMarks : List Char := ['-', '+', '*', '/', '%', '<', '>', '=']

def punctuationMarks : List Char := ['\x7b', '\x7d', ';']

namespace Rule

open Pattern

def blanks : Rule := ⟨run isBlank, .text⟩

def comment : Rule := ⟨lineComment, .comment⟩

def types : Rule := ⟨words typeWords, .keywordType⟩

def keywords : Rule := ⟨words keywordWords, .keyword⟩

def constants : Rule := ⟨words constantWords, .constant⟩

def mnemonics : Rule := ⟨words mnemonicWords, .keyword⟩

def numbers : Rule := ⟨number, .number⟩

def names : Rule := ⟨identifier, .name⟩

def pairs : Rule := ⟨any (pairMarks.map string), .operator⟩

def operators : Rule := ⟨one (· ∈ operatorMarks), .operator⟩

def punctuation : Rule := ⟨one (· ∈ punctuationMarks), .punctuation⟩

/-- A character that nothing else can be made of. -/
def stray : Rule := ⟨one (· ≠ '\n'), .error⟩

/-- Whatever is not blank. -/
def solid : Rule := ⟨run (!isBlank ·), .operator⟩

end Rule

namespace Grammar

open Rule

/-- The rules for what is neither a word nor a number. -/
def marks : Grammar := [pairs, operators, punctuation, stray]

/-- The rules for what is no reserved word. -/
def unreserved : Grammar := numbers :: names :: marks

/-- The rules for scripts. -/
def source : Grammar := blanks :: comment :: types :: keywords :: constants :: unreserved

/-- The rules for listings. -/
def listing : Grammar := [blanks, mnemonics, types, constants, numbers, names, solid]

/-- The tint and length of the first match. -/
def firstMatch? (g : Grammar) (before : Option Char) (cs : List Char) : Option (Tint × Nat) :=
  g.findSome? fun r => (r.pattern before cs).map (r.tint, ·)

end Grammar

/-! ## Pieces -/

/-- A piece of text and what it is. -/
structure Piece where
  tint : Tint
  text : List Char
deriving DecidableEq, Repr

/-- Cuts characters into pieces.  No match is empty, so a match of length `n` takes the first
character and `n - 1` more. -/
def pieces (g : Grammar) (before : Option Char) : List Char → List Piece
  | [] => []
  | c :: cs =>
    let (tint, length) := (g.firstMatch? before (c :: cs)).getD (.error, 1)
    let text := c :: cs.take (length - 1)
    ⟨tint, text⟩ :: pieces g text.getLast? (cs.drop (length - 1))
termination_by cs => cs.length
decreasing_by grind

/-- Makes every line end in a bare newline. -/
def bareNewlines : List Char → List Char
  | [] => []
  | '\r' :: '\n' :: rest => '\n' :: bareNewlines rest
  | '\r' :: rest => '\n' :: bareNewlines rest
  | c :: rest => c :: bareNewlines rest

/-- The pieces of a text. -/
def tokenise (g : Grammar) (source : Text) : List Piece :=
  pieces g none (bareNewlines source.chars)

end Scriptlet.Highlight
