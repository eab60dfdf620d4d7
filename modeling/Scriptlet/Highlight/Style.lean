import Scriptlet.Highlight.Rule

/-!
# Styles

A style gives every tint the codes that switch a terminal to its look.  A piece is written as those
codes, the piece itself and the code that switches everything off; a tint without codes is written
bare.

**What is assumed.**  Styles and formatters are those of chroma.  The codes are what its `terminal`
and `terminal8` formatters send for a style's colours, and are taken as they are.  It has more styles
than the six of `Style.named`, and formatters besides these two and `noop`.  Of those nothing is said
here: `Style.ofName` and `Formatter.ofName` treat their names like names that chroma does not know.
-/

namespace Scriptlet.Highlight

/-- The terminal codes of every tint, in the order in which they are sent. -/
structure Style where
  text : List Nat
  comment : List Nat
  keywordType : List Nat
  keyword : List Nat
  constant : List Nat
  number : List Nat
  name : List Nat
  operator : List Nat
  punctuation : List Nat
  error : List Nat

namespace Style

def codes (s : Style) : Tint → List Nat
  | .text => s.text
  | .comment => s.comment
  | .keywordType => s.keywordType
  | .keyword => s.keyword
  | .constant => s.constant
  | .number => s.number
  | .name => s.name
  | .operator => s.operator
  | .punctuation => s.punctuation
  | .error => s.error

def monokai : Style where
  text := [1, 37]
  comment := [1, 30]
  keywordType := [1, 36]
  keyword := [1, 36]
  constant := [1, 36]
  number := [33]
  name := [1, 37]
  operator := [1, 31]
  punctuation := [1, 37]
  error := [35, 40]

def swapoff : Style where
  text := []
  comment := [36]
  keywordType := [1, 1, 37]
  keyword := [1, 1, 37]
  constant := [1, 1, 37]
  number := [1, 1, 33]
  name := []
  operator := []
  punctuation := []
  error := [1, 31]

def bw : Style where
  text := []
  comment := [3]
  keywordType := []
  keyword := [1]
  constant := [1]
  number := []
  name := []
  operator := []
  punctuation := []
  error := []

def github : Style where
  text := []
  comment := [3, 33]
  keywordType := [1, 1, 30]
  keyword := [1, 30]
  constant := [1, 30]
  number := [36]
  name := [36]
  operator := [1, 30]
  punctuation := []
  error := [31, 47]

def dracula : Style where
  text := [1, 37]
  comment := [33]
  keywordType := [37]
  keyword := [33]
  constant := [33]
  number := [33]
  name := [3, 37]
  operator := [33]
  punctuation := [1, 37]
  error := [1, 37]

def vim : Style where
  text := []
  comment := [34]
  keywordType := [1, 32]
  keyword := [1, 33]
  constant := [1, 33]
  number := [1, 35]
  name := [1, 36]
  operator := [33]
  punctuation := []
  error := [37]

/-- The styles described here, a part of those that chroma has. -/
def named : List (Text × Style) :=
  [("monokai", monokai), ("swapoff", swapoff), ("bw", bw), ("github", github),
    ("dracula", dracula), ("vim", vim)]

/-- The style with a name.  A name that chroma has no style for means `swapoff`; the names of its
styles that are not described here are not told apart from those. -/
def ofName (name : Text) : Style :=
  (named.lookup name).getD swapoff

/-- The style used where none is named. -/
def defaultName : Text := "monokai"

end Style

/-- How pieces are written. -/
inductive Formatter where
  /-- One after the other. -/
  | plain
  /-- With the codes of their tints. -/
  | terminal
deriving DecidableEq, Repr

namespace Formatter

/-- The formatter with a name.  `noop` and a name that chroma has no formatter for mean `plain`; the
names of its formatters that are not described here are not told apart from those. -/
def ofName (name : Text) : Formatter :=
  if name = "terminal" || name = "terminal8" then terminal else plain

/-- The sequence that sends one code to the terminal. -/
def escape (code : Nat) : Text :=
  .concat ["\x1b[", .ofNat code, "m"]

/-- The code that switches everything off. -/
def off : Nat := 0

def piece (f : Formatter) (style : Style) (p : Piece) : Text :=
  match f, style.codes p.tint with
  | .plain, _ => .ofChars p.text
  | .terminal, [] => .ofChars p.text
  | .terminal, codes => .concat (codes.map escape ++ [.ofChars p.text, escape off])

end Formatter

/-- A text with its pieces written by a formatter. -/
def render (f : Formatter) (style : Style) (g : Grammar) (source : Text) : Text :=
  .concat ((tokenise g source).map (f.piece style))

end Scriptlet.Highlight
