/-!
# Text

Source text, names and messages are strings of bytes.  They are UTF-8 nearly always, but nothing
promises it: a source file is whatever bytes it holds, and a name that was read from it is
compared, ordered and printed byte for byte.  So `Text` is a list of bytes, and characters are
read out of it (see `Scriptlet.Text.Glyph`) only where a rule speaks of characters.

* `Text.ofChars` — the UTF-8 form of a list of characters; string literals become text by it.
* `Text.concat` — messages are written as lists of pieces.
* The order on text is the order of its bytes, first difference first.  For well-formed text that
  is the order of code points.
-/

namespace Scriptlet

/-- A string of bytes, read as UTF-8 where characters matter. -/
structure Text where
  bytes : List UInt8
deriving DecidableEq, Inhabited, Repr

namespace Text

/-- The UTF-8 form of a list of characters. -/
def ofChars (cs : List Char) : Text :=
  ⟨cs.flatMap String.utf8EncodeChar⟩

def ofString (s : String) : Text :=
  ofChars s.toList

instance : Coe String Text := ⟨ofString⟩

def append (a b : Text) : Text :=
  ⟨a.bytes ++ b.bytes⟩

instance : Append Text := ⟨append⟩

/-- The pieces one after the other. -/
def concat (pieces : List Text) : Text :=
  ⟨pieces.flatMap bytes⟩

def isEmpty (t : Text) : Bool :=
  t.bytes.isEmpty

/-- A natural number in decimal. -/
def ofNat (n : Nat) : Text :=
  ofString (toString n)

/-- An integer in decimal, with a sign if it is negative. -/
def ofInt (n : Int) : Text :=
  ofString (toString n)

/-! ## Order

Text is ordered by its bytes.  The order is total and equality under it is equality of text, so
text can key an ordered map. -/

instance : Ord Text := ⟨fun a b => compare a.bytes b.bytes⟩

theorem compare_eq (a b : Text) : compare a b = compare a.bytes b.bytes :=
  rfl

instance : Std.TransOrd Text where
  eq_swap {a b} := (Std.OrientedCmp.eq_swap : compare a.bytes b.bytes = _)
  isLE_trans {a _ c} h₁ h₂ :=
    (Std.TransCmp.isLE_trans h₁ h₂ : (compare a.bytes c.bytes).isLE = true)

instance : Std.LawfulEqOrd Text where
  eq_of_compare {a b} h := by
    have hb : a.bytes = b.bytes := Std.LawfulEqCmp.eq_of_compare h
    cases a; cases b; simp_all
  compare_self {a} := by
    rw [compare_eq]
    exact Std.ReflCmp.compare_self

/-! ## Cutting text

Lines end in a newline byte; the rules that cut text look at ASCII bytes only, so a cut never
falls inside a character. -/

def newline : UInt8 := 10

/-- The pieces between separators, the first one apart. -/
def cut (sep : UInt8) : List UInt8 → List UInt8 × List (List UInt8)
  | [] => ([], [])
  | b :: rest =>
    if b = sep then ([], (cut sep rest).1 :: (cut sep rest).2)
    else (b :: (cut sep rest).1, (cut sep rest).2)

/-- The pieces between separators: one more than there are separators. -/
def splitOn (sep : UInt8) (t : Text) : List Text :=
  ((cut sep t.bytes).1 :: (cut sep t.bytes).2).map Text.mk

def splitLines (t : Text) : List Text :=
  t.splitOn newline

/-- Pieces with a separator between each two. -/
def join (sep : Text) : List Text → Text
  | [] => ""
  | [piece] => piece
  | piece :: rest => piece ++ sep ++ join sep rest

/-- Adds a newline unless the text already ends in one. -/
def endLine (t : Text) : Text :=
  if t.bytes.getLast? = some newline then t else ⟨t.bytes ++ [newline]⟩

/-- Takes away what a text starts with, if it does. -/
def dropStart? (t start : Text) : Option Text :=
  if start.bytes.isPrefixOf t.bytes then some ⟨t.bytes.drop start.bytes.length⟩ else none

/-- Takes away what a text ends in, if it does. -/
def dropEnd? (t ending : Text) : Option Text :=
  if ending.bytes.isSuffixOf t.bytes then
    some ⟨t.bytes.take (t.bytes.length - ending.bytes.length)⟩
  else none

/-- Fills up with blanks on the left to a width in bytes. -/
def padLeft (width : Nat) (t : Text) : Text :=
  ⟨List.replicate (width - t.bytes.length) 32 ++ t.bytes⟩

end Text

end Scriptlet
