import Scriptlet.Text.CharClass.Connector
import Scriptlet.Text.CharClass.Digit
import Scriptlet.Text.CharClass.Graphic
import Scriptlet.Text.CharClass.Letter
import Scriptlet.Text.CharClass.Mark

/-!
# Classes of characters

Every character falls into one `CharClass`.  The scanner, the quoting of text and the colouring of
source all decide by it, so that what is a letter in one place is a letter in all of them, and
classes that a rule keeps apart cannot overlap.

* `CharClass.of` — the class of a character: by comparison for ASCII, by table beyond it.
* `isBlank` — the characters with the `White_Space` property.
* `isLetter`, `isDigit` — general category `L` and `Nd`.
* `isPrintable` — characters that leave ink, and the plain space.
* `isWordChar` — letters, digits, nonspacing marks, connectors and the two zero width joiners: the
  characters that word boundaries are drawn around.
-/

namespace Scriptlet

inductive CharClass where
  | blank
  | letter
  | digit
  | mark
  | connector
  | graphic
  | unprintable
deriving DecidableEq, Repr

namespace CharClass

/-- The code points beyond ASCII that have the `White_Space` property. -/
def blankRanges : List (Nat × Nat) := [
  (0x0085, 0x0085), (0x00A0, 0x00A0), (0x1680, 0x1680), (0x2000, 0x200A), (0x2028, 0x2029),
  (0x202F, 0x202F), (0x205F, 0x205F), (0x3000, 0x3000)]

def inRanges (ranges : List (Nat × Nat)) (n : Nat) : Bool :=
  ranges.any fun (first, last) => first ≤ n && n ≤ last

/-- The class of a code point below 128. -/
def ofAscii (n : Nat) : CharClass :=
  if n = 0x20 || (0x09 ≤ n && n ≤ 0x0D) then blank
  else if n < 0x20 || n = 0x7F then unprintable
  else if (0x41 ≤ n && n ≤ 0x5A) || (0x61 ≤ n && n ≤ 0x7A) then letter
  else if 0x30 ≤ n && n ≤ 0x39 then digit
  else if n = 0x5F then connector
  else graphic

/-- The class of a code point from 128 on. -/
def ofTables (n : Nat) : CharClass :=
  if inRanges blankRanges n then blank
  else if inRanges letterRanges n then letter
  else if inRanges digitRanges n then digit
  else if inRanges markRanges n then mark
  else if inRanges connectorRanges n then connector
  else if inRanges graphicRanges n then graphic
  else unprintable

def of (c : Char) : CharClass :=
  if c.toNat < 0x80 then ofAscii c.toNat else ofTables c.toNat

end CharClass

def isBlank (c : Char) : Bool :=
  CharClass.of c = .blank

def isLetter (c : Char) : Bool :=
  CharClass.of c = .letter

def isDigit (c : Char) : Bool :=
  CharClass.of c = .digit

/-- Of the blank characters only the plain space counts as printable. -/
def isPrintable (c : Char) : Bool :=
  match CharClass.of c with
  | .blank => c = ' '
  | .unprintable => false
  | _ => true

def isWordChar (c : Char) : Bool :=
  match CharClass.of c with
  | .letter | .digit | .mark | .connector => true
  | _ => c.toNat = 0x200C || c.toNat = 0x200D

end Scriptlet
