import Scriptlet.Text.CharClass
import Scriptlet.Text.Glyph

/-!
# Quoted text

Messages show text in quotes, so that blanks at its ends, control characters and stray bytes can
be seen.  What is printable stands for itself, except the quote and the backslash, which get a
backslash.  Everything else is written as an escape:

* the seven control characters with a letter of their own as `\a \b \f \n \r \t \v`,
* other characters below U+0080 as `\x` and two digits, up to U+FFFF as `\u` and four, beyond as
  `\U` and eight, all in lower case hexadecimal,
* a stray byte as `\x` and two digits.

Main definitions: `Text.quoted` (double quotes) and `Text.quotedChar` (a single character in
single quotes).
-/

namespace Scriptlet.Text

/-- The last `width` hexadecimal digits of a number. -/
def hexDigits (width n : Nat) : List Char :=
  match width with
  | 0 => []
  | width + 1 => hexDigits width (n / 16) ++ [Nat.digitChar (n % 16)]

/-- The letter that follows the backslash for a control character that has one. -/
def controlLetter? (c : Char) : Option Char :=
  match c.toNat with
  | 7 => some 'a'
  | 8 => some 'b'
  | 9 => some 't'
  | 10 => some 'n'
  | 11 => some 'v'
  | 12 => some 'f'
  | 13 => some 'r'
  | _ => none

/-- How a character that cannot be printed is written. -/
def escapeUnprintable (c : Char) : List Char :=
  match controlLetter? c with
  | some l => ['\\', l]
  | none =>
    if c.toNat < 0x80 then '\\' :: 'x' :: hexDigits 2 c.toNat
    else if c.toNat < 0x10000 then '\\' :: 'u' :: hexDigits 4 c.toNat
    else '\\' :: 'U' :: hexDigits 8 c.toNat

/-- How a character is written between two of the given quotes. -/
def escapeChar (quote c : Char) : List Char :=
  if c = quote || c = '\\' then ['\\', c]
  else if isPrintable c then [c]
  else escapeUnprintable c

def escapeGlyph (quote : Char) : Glyph → List Char
  | .char c => escapeChar quote c
  | .stray b => '\\' :: 'x' :: hexDigits 2 b.toNat

/-- The characters of a text in double quotes. -/
def quotedChars (t : Text) : List Char :=
  '"' :: t.glyphs.flatMap (escapeGlyph '"') ++ ['"']

/-- A text in double quotes. -/
def quoted (t : Text) : Text :=
  ofChars t.quotedChars

/-- A character in single quotes. -/
def quotedChar (c : Char) : Text :=
  ofChars ('\'' :: escapeChar '\'' c ++ ['\''])

/-- A text in double quotes, filled up with blanks on the right to a width in characters. -/
def quotedPadded (width : Nat) (t : Text) : Text :=
  ofChars (t.quotedChars ++ List.replicate (width - t.quotedChars.length) ' ')

end Scriptlet.Text
