import Scriptlet.Text.Glyph

/-!
# Name patterns

A pattern stands for file names: `*` for any bytes, `?` for one character, `[a-z]` and `[^a-z]` for
one character in some ranges or in none of them; a backslash takes a special character literally.

A pattern is read into `Chunk`s, runs of items that may follow a star.  A name matches if its chunks
are found in it from left to right.  A chunk behind a star is taken where it first fits, and only
the last chunk has to reach the end of the name.

A chunk with an item that cannot be read is malformed.  That is an error for those names only for
which all chunks before it are found.

* `NamePattern.read` — the chunks of a pattern.
* `NamePattern.matches?` — whether a name matches, or nothing if it comes to a malformed chunk.
-/

namespace Scriptlet.NamePattern

/-- What stands for a byte or a character of a name. -/
inductive Item where
  | byte (b : UInt8)
  | anyChar
  | oneOf (negated : Bool) (ranges : List (Char × Char))
deriving DecidableEq, Repr

/-- Items, and whether a star comes before them.  A malformed chunk has none. -/
structure Chunk where
  star : Bool
  items? : Option (List Item)
deriving DecidableEq, Repr

/-! ## Reading patterns -/

/-- Whether a byte means anything but itself. -/
def isSpecial (b : UInt8) : Bool :=
  b = 42 || b = 63 || b = 91 || b = 92

/-- Reads one end of a range.  Something has to follow it. -/
def readEnd? : List UInt8 → Option (Char × List UInt8)
  | [] => none
  | b :: rest =>
    if b = 45 || b = 93 then none
    else
      let char := if b = 92 then rest else b :: rest
      match Text.frontChar? char with
      | none => none
      | some c =>
        let after := char.drop c.utf8Size
        if after.isEmpty then none else some (c, after)

/-- Reads one range, a single character being one too. -/
def readRange? (bytes : List UInt8) : Option ((Char × Char) × List UInt8) :=
  match readEnd? bytes with
  | none => none
  | some (low, rest) =>
    if rest.head? = some 45 then (readEnd? (rest.drop 1)).map fun (high, rest) => ((low, high), rest)
    else some ((low, low), rest)

/-- Reads ranges up to the closing bracket; there has to be one.  Every range takes at least a
byte, so as many rounds as there are bytes suffice. -/
def readRanges? (rounds : Nat) (bytes : List UInt8) : Option (List (Char × Char) × List UInt8) :=
  match rounds with
  | 0 => none
  | rounds + 1 =>
    match readRange? bytes with
    | none => none
    | some (range, rest) =>
      if rest.head? = some 93 then some ([range], rest.drop 1)
      else (readRanges? rounds rest).map fun (ranges, rest) => (range :: ranges, rest)

/-- Reads the inside of brackets. -/
def readClass? (bytes : List UInt8) : Option (Item × List UInt8) :=
  let negated := bytes.head? = some 94
  let inside := if negated then bytes.drop 1 else bytes
  (readRanges? inside.length inside).map fun (ranges, rest) => (.oneOf negated ranges, rest)

/-- Reads an item; a pattern that cannot be read has none at its front. -/
def readItem? : List UInt8 → Option (Item × List UInt8)
  | [] => none
  | b :: rest =>
    if b = 63 then some (.anyChar, rest)
    else if b = 91 then readClass? rest
    else if b = 92 then
      match rest with
      | [] => none
      | c :: rest => some (.byte c, rest)
    else some (.byte b, rest)

/-- Reads items up to a star, in as many rounds as there are bytes. -/
def readItems? (rounds : Nat) (bytes : List UInt8) : Option (List Item × List UInt8) :=
  match rounds, bytes with
  | _, [] => some ([], [])
  | 0, _ => none
  | rounds + 1, b :: rest =>
    if b = 42 then some ([], b :: rest)
    else
      match readItem? (b :: rest) with
      | none => none
      | some (item, rest) =>
        (readItems? rounds rest).map fun (items, rest) => (item :: items, rest)

/-- Reads a chunk and gives what follows it.  Nothing behind a malformed chunk can be reached, so
nothing is left of it. -/
def readChunk (bytes : List UInt8) : Chunk × List UInt8 :=
  let star := bytes.head? = some 42
  let inside := bytes.dropWhile (· = 42)
  match readItems? inside.length inside with
  | some (items, rest) => (⟨star, some items⟩, rest)
  | none => (⟨star, none⟩, [])

/-- Reads chunks, in as many rounds as there are bytes. -/
def readChunks (rounds : Nat) (bytes : List UInt8) : List Chunk :=
  match rounds, bytes with
  | _, [] => []
  | 0, _ => []
  | rounds + 1, bytes =>
    let (chunk, rest) := readChunk bytes
    chunk :: readChunks rounds rest

/-- Reads a pattern. -/
def read (pattern : Text) : List Chunk :=
  readChunks pattern.bytes.length pattern.bytes

/-- Whether a pattern starts with a malformed chunk, so that every name comes to it. -/
def startsMalformed (pattern : Text) : Bool :=
  (readChunk pattern.bytes).1.items?.isNone

/-! ## Matching -/

/-- The first character of a name, a stray byte counting as one, and what follows it. -/
def frontGlyph? : List UInt8 → Option (Glyph × List UInt8)
  | [] => none
  | b :: rest =>
    match Text.frontChar? (b :: rest) with
    | some c => some (.char c, (b :: rest).drop c.utf8Size)
    | none => some (.stray b, rest)

/-- What follows an item at the front of a name. -/
def Item.rest? (item : Item) (name : List UInt8) : Option (List UInt8) :=
  match item, name with
  | .byte b, c :: rest => if b = c then some rest else none
  | .byte _, [] => none
  | .anyChar, name => (frontGlyph? name).map (·.2)
  | .oneOf negated ranges, name =>
    match frontGlyph? name with
    | none => none
    | some (g, rest) =>
      if ranges.any (fun (low, high) => low ≤ g.toChar && g.toChar ≤ high) != negated then some rest
      else none

/-- What follows items at the front of a name. -/
def restOfItems? (items : List Item) (name : List UInt8) : Option (List UInt8) :=
  items.foldlM (fun rest item => item.rest? rest) name

/-- What follows the items at the front of a name, which has to be nothing if they are the last. -/
def fit? (items : List Item) (last : Bool) (name : List UInt8) : Option (List UInt8) :=
  (restOfItems? items name).filter fun rest => !last || rest.isEmpty

/-- What follows the items where they first fit. -/
def find? (items : List Item) (last : Bool) : List UInt8 → Option (List UInt8)
  | [] => fit? items last []
  | b :: rest =>
    match fit? items last (b :: rest) with
    | some after => some after
    | none => find? items last rest

/-- Whether a name matches, or nothing if it comes to a malformed chunk. -/
def matches? : List Chunk → List UInt8 → Option Bool
  | [], name => some name.isEmpty
  | ⟨_, none⟩ :: _, _ => none
  | ⟨true, some []⟩ :: _, _ => some true
  | ⟨star, some items⟩ :: rest, name =>
    let after := if star then find? items rest.isEmpty name else fit? items rest.isEmpty name
    match after with
    | some name => matches? rest name
    | none => some false

end Scriptlet.NamePattern
