import Scriptlet.Token.Lexeme

/-!
# Scanning

`lex` reads characters from a position on, lexeme by lexeme, until none are left or a fault stops
it.  `scan` does so for a whole source text.

A `Scanner` is the same reading in the hands of a caller who also looks at single characters: it
keeps what is unread, the characters taken since the last reset and the tokens found so far.
Whatever a caller did before, `Scanner.tokenize` adds the tokens that `lex` finds in the unread
part, and after a fault the scanner stands right behind the character at fault.
-/

namespace Scriptlet

/-- A place in the source, both numbers counted from `1`. -/
structure Position where
  line : Nat
  col : Nat
deriving DecidableEq, Repr

namespace Position

def start : Position := ⟨1, 1⟩

/-- The place after a character: a newline starts the next line. -/
def advance (p : Position) (c : Char) : Position :=
  if c = '\n' then ⟨p.line + 1, 1⟩ else ⟨p.line, p.col + 1⟩

/-- The place after some characters. -/
def after (p : Position) (cs : List Char) : Position :=
  cs.foldl advance p

end Position

/-- The character at which scanning stopped, and its place. -/
structure ScanError where
  position : Position
  char : Char
deriving DecidableEq, Repr

def ScanError.message (e : ScanError) : Text :=
  .concat ["line ", .ofNat e.position.line, ", col ", .ofNat e.position.col,
    ": unexpected character ", Text.quotedChar e.char]

/-- What a reading of characters found. -/
structure Lexed where
  /-- The tokens, in order. -/
  tokens : List Token
  /-- How many characters were read. -/
  consumed : Nat
  /-- The place behind the characters that were read. -/
  position : Position
  /-- The place where the last lexeme starts if it is at fault, and else `position`. -/
  mark : Position
  /-- The characters from `mark` to `position`. -/
  pending : List Char
  fault : Option ScanError
deriving DecidableEq, Repr

/-- Puts a lexeme in front of what the reading of the rest found. -/
def Lexed.prepend (tokens : List Token) (width : Nat) (rest : Lexed) : Lexed :=
  { rest with tokens := tokens ++ rest.tokens, consumed := width + rest.consumed }

/-- The fault of a lexeme at `p`: its last character is at fault. -/
def ScanError.ofLexeme (p : Position) (text : List Char) (first : Char) : ScanError :=
  ⟨p.after text.dropLast, text.getLast?.getD first⟩

/-- Reads characters that start at `p`. -/
def lex (p : Position) : List Char → Lexed
  | [] => ⟨[], 0, p, p, [], none⟩
  | c :: cs =>
    let lexeme := Lexeme.front c cs
    let text := c :: cs.take lexeme.more
    let rest := cs.drop lexeme.more
    match lexeme.shape with
    | .gap => (lex (p.after text) rest).prepend [] text.length
    | .token kind =>
      (lex (p.after text) rest).prepend [⟨kind, .ofChars text, p.line, p.col⟩] text.length
    | .fault => ⟨[], text.length, p.after text, p, text, some (.ofLexeme p text c)⟩
termination_by cs => cs.length
decreasing_by all_goals grind

/-- The tokens of a source text. -/
def scan (source : Text) : Except ScanError (List Token) :=
  let found := lex .start source.chars
  match found.fault with
  | none => .ok found.tokens
  | some e => .error e

/-! ## A scanner in steps -/

structure Scanner where
  unread : List Glyph
  position : Position := .start
  /-- The column that the next token gets. -/
  startCol : Nat := 0
  /-- The characters taken since the last reset. -/
  read : List Char := []
  tokens : List Token := []
deriving Repr

namespace Scanner

def ofText (source : Text) : Scanner :=
  ⟨source.glyphs, .start, 0, [], []⟩

/-- The next character, which stays unread. -/
def peek? (s : Scanner) : Option Char :=
  s.unread.head?.map Glyph.toChar

/-- Takes the next character. -/
def advance? (s : Scanner) : Option (Char × Scanner) :=
  match s.unread with
  | [] => none
  | g :: rest =>
    some (g.toChar, { s with
      unread := rest
      position := s.position.advance g.toChar
      read := s.read ++ [g.toChar] })

/-- Forgets the characters taken; the next token starts here. -/
def reset (s : Scanner) : Scanner :=
  { s with read := [], startCol := s.position.col }

/-- Makes a token of the characters taken.  Its line is the one reached by now. -/
def emit (s : Scanner) (kind : Kind) : Scanner :=
  let token : Token := ⟨kind, .ofChars s.read, s.position.line, s.startCol⟩
  { s with tokens := s.tokens ++ [token] }.reset

/-- The number of unread bytes. -/
def unreadBytes (s : Scanner) : Nat :=
  s.unread.foldr (fun g n => g.width + n) 0

/-- Reads on as far as there are tokens, and says what stopped it before the end. -/
def tokenize (s : Scanner) : Scanner × Option ScanError :=
  let found := lex s.position (s.unread.map Glyph.toChar)
  ({ unread := s.unread.drop found.consumed
     position := found.position
     startCol := found.mark.col
     read := found.pending
     tokens := s.tokens ++ found.tokens }, found.fault)

end Scanner

end Scriptlet
