import Scriptlet.Text.Basic

/-!
# Glyphs

Reading a text from the front gives characters as long as its bytes are UTF-8.  A byte that starts
no character stands alone, and reading goes on with the byte after it.  A `Glyph` is what one such
step finds: a character, or a stray byte.

* `Text.glyphs` — the glyphs of a text, in order.  Nothing is lost: the bytes of the glyphs, one
  after the other, are the bytes of the text.
* `Text.chars` — the same as characters, each stray byte read as the replacement character U+FFFD.
* `Text.toString?` — the text as a string, if it holds no stray byte.
-/

namespace Scriptlet

/-- What reading one step into a text finds. -/
inductive Glyph where
  | char (c : Char)
  | stray (b : UInt8)
deriving DecidableEq, Repr

namespace Glyph

/-- The character U+FFFD, which stands for whatever cannot be read. -/
def replacement : Char := '�'

/-- The glyph as a character. -/
def toChar : Glyph → Char
  | char c => c
  | stray _ => replacement

/-- The bytes that the glyph was read from. -/
def bytes : Glyph → List UInt8
  | char c => String.utf8EncodeChar c
  | stray b => [b]

/-- The number of bytes that the glyph was read from. -/
def width (g : Glyph) : Nat :=
  g.bytes.length

end Glyph

namespace Text

/-- The character whose UTF-8 form stands at the front; no such form is longer than four bytes. -/
def frontChar? (bytes : List UInt8) : Option Char :=
  (bytes.take 4).toByteArray.utf8DecodeChar? 0

/-- The glyphs of a string of bytes. -/
def readGlyphs : List UInt8 → List Glyph
  | [] => []
  | b :: rest =>
    match frontChar? (b :: rest) with
    | some c => .char c :: readGlyphs (rest.drop (c.utf8Size - 1))
    | none => .stray b :: readGlyphs rest
termination_by bytes => bytes.length
decreasing_by all_goals grind

def glyphs (t : Text) : List Glyph :=
  readGlyphs t.bytes

/-- The characters of a text, U+FFFD for every stray byte. -/
def chars (t : Text) : List Char :=
  t.glyphs.map Glyph.toChar

/-- The text that reads as the given glyphs, if no stray bytes of theirs join to a character. -/
def ofGlyphs (gs : List Glyph) : Text :=
  ⟨gs.flatMap Glyph.bytes⟩

/-- The text as a string, if it is UTF-8 throughout. -/
def toString? (t : Text) : Option String :=
  let step (g : Glyph) : Option Char :=
    match g with
    | .char c => some c
    | .stray _ => none
  (t.glyphs.mapM step).map String.ofList

end Text

end Scriptlet
