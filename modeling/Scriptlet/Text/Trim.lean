import Scriptlet.Text.CharClass
import Scriptlet.Text.Glyph

/-!
# Blanks at the ends of text
-/

namespace Scriptlet.Text

def isBlankGlyph (g : Glyph) : Bool :=
  isBlank g.toChar

/-- A text without the blank characters at either end. -/
def trim (t : Text) : Text :=
  let front := t.glyphs.dropWhile isBlankGlyph
  .ofGlyphs (front.reverse.dropWhile isBlankGlyph).reverse

end Scriptlet.Text
