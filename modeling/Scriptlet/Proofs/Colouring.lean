import Mathlib
import Scriptlet.Highlight.Rule
import Scriptlet.Proofs.MaximalMunch

/-!
# Colouring agrees with scanning

The colouring of a script has rules of its own for words, numbers and marks, and it takes the first
rule that matches where the scanner takes the longest lexeme.  On ASCII text the two agree: the
pieces that are neither blank nor comments are the tokens, one by one, and there is a piece with the
tint `error` exactly if the scanner fails.

The rules for reserved words ask for a word boundary on both sides.  A digit in front of a word is
not one, although the number ends there: in `5int` the scanner finds a type, and the colouring shows
a name.  `tintAfter` says so, and it is the only difference.

* `Grammar.firstMatch?_token` — where the longest lexeme is a token, the first match is that token.
* `Grammar.firstMatch?_fault` — where there is no lexeme, the first match is an error.
* `Agrees`, `agrees_of_lexes` — agreement from any place on at which a token or a gap may start.
* **`tokenise_agrees_with_scan`** — agreement for whole texts.
-/

namespace Scriptlet.Highlight

open Lexeme Pattern

/-! ## What is shown of a token -/

def reservedWords : List String := Lexeme.typeWords ++ Lexeme.keywordWords ++ literalWords

def isReserved (t : Token) : Bool :=
  String.ofList t.literal.chars ∈ reservedWords

/-- The tint of a kind of tokens.  Of the numbers, reserved words are constants. -/
def kindTint (reserved : Bool) : Kind → Tint
  | .type => .keywordType
  | .keyword => .keyword
  | .number => if reserved then .constant else .number
  | .identifier => .name
  | .equals | .binaryOperator => .operator
  | .openDelim | .closeDelim | .terminator => .punctuation
  | .unknown _ => .error

/-- The tint of a token, given the character before it: a reserved word behind a digit is shown as
a name. -/
def tintAfter (before : Option Char) (t : Token) : Tint :=
  if isReserved t && before.any isDigit then .name else kindTint (isReserved t) t.kind

/-- The pieces that are neither blank nor comments, each with the character before it. -/
def significant (before : Option Char) : List Piece → List (Option Char × Piece)
  | [] => []
  | p :: ps =>
    if p.tint = .text || p.tint = .comment then significant p.text.getLast? ps
    else (before, p) :: significant p.text.getLast? ps

/-- A piece that stands behind a character shows a token. -/
def Shows (x : Option Char × Piece) (t : Token) : Prop :=
  t.literal = .ofChars x.2.text ∧ x.2.tint = tintAfter x.1 t

/-! ## ASCII text -/

def IsAscii (cs : List Char) : Prop := ∀ c ∈ cs, c.toNat < 128

section Ascii

variable {c : Char} {cs : List Char}

/-- What holds of the characters below 128 holds of every ASCII character. -/
lemma of_ascii {P : Char → Prop} (h : ∀ n < 128, P (Char.ofNat n)) (hc : c.toNat < 128) : P c := by
  rw [← Char.ofNat_toNat c]
  exact h _ hc

lemma isAsciiDigit_eq (hc : c.toNat < 128) : isAsciiDigit c = isDigit c :=
  of_ascii (P := fun c => isAsciiDigit c = isDigit c) (by decide) hc

lemma isAsciiLetter_eq (hc : c.toNat < 128) : isAsciiLetter c = isLetter c :=
  of_ascii (P := fun c => isAsciiLetter c = isLetter c) (by decide) hc

lemma isWordChar_eq (hc : c.toNat < 128) : isWordChar c = continuesWord c :=
  of_ascii (P := fun c => isWordChar c = continuesWord c) (by decide) hc

lemma IsAscii.head (h : IsAscii (c :: cs)) : c.toNat < 128 :=
  h c List.mem_cons_self

lemma IsAscii.tail (h : IsAscii (c :: cs)) : IsAscii cs :=
  fun d hd => h d (List.mem_cons_of_mem c hd)

lemma takeWhile_congr {p q : Char → Bool} (h : ∀ c ∈ cs, p c = q c) :
    cs.takeWhile p = cs.takeWhile q := by
  induction cs with
  | nil => rfl
  | cons c cs ih =>
      rw [List.takeWhile_cons, List.takeWhile_cons, h c List.mem_cons_self,
        ih fun d hd => h d (List.mem_cons_of_mem c hd)]

lemma IsAscii.isInWord_head (h : IsAscii cs) :
    isInWord cs.head? = cs.head?.any continuesWord := by
  cases cs with
  | nil => rfl
  | cons c cs => simp [isInWord, isWordChar_eq h.head]

lemma IsAscii.bareNewlines (h : IsAscii cs) : IsAscii (bareNewlines cs) := by
  induction cs using bareNewlines.induct with
  | case1 => simpa [Highlight.bareNewlines] using h
  | case2 rest ih =>
      rw [Highlight.bareNewlines]
      exact List.forall_mem_cons.mpr ⟨by decide, ih h.tail.tail⟩
  | case3 rest hrest ih =>
      rw [Highlight.bareNewlines.eq_3 _ hrest]
      exact List.forall_mem_cons.mpr ⟨by decide, ih h.tail⟩
  | case4 c rest hc hc' ih =>
      rw [Highlight.bareNewlines.eq_4 _ _ hc hc']
      exact List.forall_mem_cons.mpr ⟨h.head, ih h.tail⟩

end Ascii

/-! ## What the patterns match -/

namespace Pattern

variable {before : Option Char} {c : Char} {cs : List Char}

/-- Of several patterns that are each for one string, only the one for `key` can match. -/
lemma any_map {f : String → Pattern} {ss : List String} {key : String} {found : Option Nat}
    (h : ∀ s ∈ ss, f s before cs = if s = key then found else none) :
    any (ss.map f) before cs = if key ∈ ss then found else none := by
  induction ss with
  | nil => rfl
  | cons s ss ih =>
      have hs := h s List.mem_cons_self
      have hrest := ih fun s' hs' => h s' (List.mem_cons_of_mem s hs')
      unfold any at hrest ⊢
      rw [List.map_cons, List.findSome?_cons, hs, hrest]
      by_cases hkey : s = key
      · cases found <;> simp [hkey]
      · simp [hkey, Ne.symm hkey]

lemma any_string {ss : List String} {n : Nat} (hn : ∀ s ∈ ss, s.toList.length = n) :
    any (ss.map string) before cs
      = if String.ofList (cs.take n) ∈ ss then some n else none := by
  refine any_map fun s hs => ?_
  have hprefix : s.toList.isPrefixOf cs = true ↔ s = String.ofList (cs.take n) := by
    rw [List.isPrefixOf_iff_prefix, List.prefix_iff_eq_take, hn s hs, ← String.toList_inj,
      String.toList_ofList]
  have hlength : s.length = n := by rw [← String.length_toList, hn s hs]
  by_cases hkey : s = String.ofList (cs.take n)
  · simp only [string, hprefix.mpr hkey, hlength, if_true, if_pos hkey]
  · rw [string, if_neg (mt hprefix.mp hkey), if_neg hkey]

/-- A word matches if it is the longest word at the front, and no word goes on there. -/
lemma word_eq (hascii : IsAscii cs) {w : String} (hne : w.toList ≠ [])
    (hw : ∀ d ∈ w.toList, continuesWord d) :
    word w before cs = if w = String.ofList (cs.takeWhile continuesWord) then
      (if isInWord before then none else some (cs.takeWhile continuesWord).length) else none := by
  have hlength : w.length = w.toList.length := String.length_toList.symm
  have hpos : w.length ≠ 0 := by rw [hlength]; simpa using hne
  by_cases hkey : w = String.ofList (cs.takeWhile continuesWord)
  · have hlist : w.toList = cs.takeWhile continuesWord := by rw [hkey, String.toList_ofList]
    have hprefix : w.toList.isPrefixOf cs = true := by
      rw [List.isPrefixOf_iff_prefix, hlist]
      exact List.takeWhile_prefix _
    have hend : isInWord (cs.drop w.length).head? = false := by
      rw [IsAscii.isInWord_head fun d hd => hascii d (List.mem_of_mem_drop hd), hlength, hlist,
        drop_length_takeWhile, Option.any_eq_false]
      intro d hd
      simpa using dropWhile_head continuesWord cs d hd
    rw [if_pos hkey, ← hlist, ← hlength]
    cases hin : isInWord before <;> simp only [word, hprefix, hend, hin, atLeastOne, hpos] <;> simp
  · rw [if_neg hkey, word]
    refine if_neg fun h => hkey ?_
    simp only [Bool.and_eq_true, Bool.not_eq_true', List.isPrefixOf_iff_prefix] at h
    obtain ⟨⟨⟨rest, hcs⟩, -⟩, hend⟩ := h
    -- the word stops where `w` does
    have hstop : rest.takeWhile continuesWord = [] := by
      rw [hlength, ← hcs, List.drop_left,
        IsAscii.isInWord_head fun d hd => hascii d (hcs ▸ List.mem_append_right _ hd)] at hend
      cases rest with
      | nil => rfl
      | cons d rest => simpa [List.takeWhile_cons] using hend
    rw [← hcs, List.takeWhile_append_of_pos hw, hstop, List.append_nil, String.ofList_toList]

lemma words_eq (hascii : IsAscii cs) {ws : List String} (hws : ∀ w ∈ ws, w ∈ reservedWords) :
    words ws before cs = if String.ofList (cs.takeWhile continuesWord) ∈ ws then
      (if isInWord before then none else some (cs.takeWhile continuesWord).length) else none := by
  refine any_map fun w hw => ?_
  have hword : ∀ w ∈ reservedWords, w.toList ≠ [] ∧ w.toList.all continuesWord := by decide
  obtain ⟨hne, hall⟩ := hword w (hws w hw)
  exact word_eq hascii hne (List.all_eq_true.mp hall)

lemma takeWhile_isAsciiDigit (hascii : IsAscii cs) :
    cs.takeWhile isAsciiDigit = cs.takeWhile isDigit :=
  takeWhile_congr fun d hd => isAsciiDigit_eq (hascii d hd)

lemma identifier_of_startsWord (hascii : IsAscii (c :: cs)) (hc : startsWord c) :
    identifier before (c :: cs) = some ((cs.takeWhile continuesWord).length + 1) := by
  have hfirst : (isAsciiLetter c || decide (c = '_')) = true := by
    rw [isAsciiLetter_eq hascii.head]
    exact hc
  have hmore : (cs.takeWhile fun d => isAsciiLetter d || isAsciiDigit d || decide (d = '_'))
      = cs.takeWhile continuesWord := by
    refine takeWhile_congr fun d hd => ?_
    rw [isAsciiLetter_eq (hascii.tail d hd), isAsciiDigit_eq (hascii.tail d hd), continuesWord]
  rw [identifier, if_pos hfirst, hmore]

lemma identifier_eq_none (hascii : IsAscii (c :: cs)) (hc : ¬ startsWord c) :
    identifier before (c :: cs) = none := by
  rw [identifier, isAsciiLetter_eq hascii.head]
  exact if_neg hc

lemma run_eq_none {p : Char → Bool} (hc : ¬ p c) : run p before (c :: cs) = none := by
  simp [run, atLeastOne, hc]

lemma lineComment_eq_none (h : ¬ (c = '/' ∧ cs.head? = some '/')) :
    lineComment before (c :: cs) = none := by
  unfold lineComment
  split
  · next heq =>
      rw [List.cons.injEq] at heq
      exact absurd ⟨heq.1, by simp [heq.2]⟩ h
  · rfl

/-- The pattern for numbers in terms of what the scanner takes for digits: with a point behind
them, -/
lemma number_of_point (hascii : IsAscii cs) {after : List Char}
    (hpoint : cs.dropWhile isDigit = '.' :: after) :
    number before cs =
      let whole := (cs.takeWhile isDigit).length
      let fraction := (after.takeWhile isDigit).length
      atLeastOne (if whole = 0 || fraction = 0 then whole else whole + 1 + fraction) := by
  have hafter : IsAscii after := by
    intro d hd
    refine hascii d ((List.dropWhile_suffix isDigit).mem ?_)
    rw [hpoint]
    exact List.mem_cons_of_mem _ hd
  simp only [number, takeWhile_isAsciiDigit hascii, drop_length_takeWhile, hpoint,
    takeWhile_isAsciiDigit hafter]

/-- and without. -/
lemma number_of_no_point (hascii : IsAscii cs)
    (hpoint : ∀ after, cs.dropWhile isDigit ≠ '.' :: after) :
    number before cs = atLeastOne (cs.takeWhile isDigit).length := by
  simp only [number, takeWhile_isAsciiDigit hascii, drop_length_takeWhile]

lemma number_eq_none (hascii : IsAscii (c :: cs)) (hc : ¬ isDigit c) :
    number before (c :: cs) = none := by
  by_cases hpoint : ∃ after, (c :: cs).dropWhile isDigit = '.' :: after
  · obtain ⟨after, hpoint⟩ := hpoint
    rw [number_of_point hascii hpoint]
    simp [hc, atLeastOne]
  · rw [number_of_no_point hascii (not_exists.mp hpoint)]
    simp [hc, atLeastOne]

lemma number_of_decimal (hascii : IsAscii (c :: cs)) (hc : isDigit c) {after : List Char}
    (hpoint : cs.dropWhile isDigit = '.' :: after) (hne : after.takeWhile isDigit ≠ []) :
    number before (c :: cs)
      = some ((cs.takeWhile isDigit ++ '.' :: after.takeWhile isDigit).length + 1) := by
  rw [number_of_point hascii ((List.dropWhile_cons_of_pos hc).trans hpoint),
    List.takeWhile_cons_of_pos hc]
  simp only [atLeastOne, List.length_eq_zero_iff, List.length_cons, List.length_append, hne]
  simp
  omega

lemma number_of_whole (hascii : IsAscii (c :: cs)) (hc : isDigit c)
    (hnone : ∀ after, cs.dropWhile isDigit = '.' :: after → after.takeWhile isDigit = []) :
    number before (c :: cs) = some ((cs.takeWhile isDigit).length + 1) := by
  have hdrop : (c :: cs).dropWhile isDigit = cs.dropWhile isDigit := List.dropWhile_cons_of_pos hc
  by_cases hpoint : ∃ after, cs.dropWhile isDigit = '.' :: after
  · obtain ⟨after, hpoint⟩ := hpoint
    rw [number_of_point hascii (hdrop.trans hpoint), List.takeWhile_cons_of_pos hc]
    simp [hnone after hpoint, atLeastOne]
  · rw [number_of_no_point hascii (hdrop ▸ not_exists.mp hpoint), List.takeWhile_cons_of_pos hc]
    simp [atLeastOne]

end Pattern

/-! ## The first match -/

namespace Grammar

variable {before : Option Char} {c : Char} {cs text rest : List Char} {kind : Kind}

lemma firstMatch?_skip {r : Rule} {g : Grammar} (h : r.pattern before cs = none) :
    firstMatch? (r :: g) before cs = firstMatch? g before cs := by
  simp only [firstMatch?, List.findSome?_cons, h, Option.map_none]

lemma firstMatch?_take {r : Rule} {g : Grammar} {n : Nat} (h : r.pattern before cs = some n) :
    firstMatch? (r :: g) before cs = some (r.tint, n) := by
  simp only [firstMatch?, List.findSome?_cons, h, Option.map_some]

lemma firstMatch?_blank (hc : isBlank c) :
    firstMatch? source before (c :: cs) = some (.text, (cs.takeWhile isBlank).length + 1) := by
  have hblank : run isBlank before (c :: cs) = some ((cs.takeWhile isBlank).length + 1) := by
    simp [run, atLeastOne, hc]
  exact firstMatch?_take hblank

lemma firstMatch?_comment :
    firstMatch? source before ('/' :: '/' :: cs)
      = some (.comment, (cs.takeWhile (· ≠ '\n')).length + 2) := by
  have hblank : run isBlank before ('/' :: '/' :: cs) = none := run_eq_none (by decide)
  exact (firstMatch?_skip hblank).trans (firstMatch?_take rfl)

/-- The rules for reserved words, where neither a blank nor a comment starts.  They list the words
of the scanner's tables. -/
lemma firstMatch?_reserved (hascii : IsAscii cs) (hblank : run isBlank before cs = none)
    (hcomment : lineComment before cs = none) :
    let w := cs.takeWhile continuesWord
    firstMatch? source before cs =
      if isInWord before then firstMatch? unreserved before cs
      else if String.ofList w ∈ Lexeme.typeWords then some (.keywordType, w.length)
      else if String.ofList w ∈ Lexeme.keywordWords then some (.keyword, w.length)
      else if String.ofList w ∈ literalWords then some (.constant, w.length)
      else firstMatch? unreserved before cs := by
  intro w
  have hwords {ws : List String} (hws : ∀ s ∈ ws, s ∈ reservedWords) : words ws before cs
      = if String.ofList w ∈ ws then (if isInWord before then none else some w.length) else none :=
    words_eq hascii hws
  have htypes : words Lexeme.typeWords before cs = _ := hwords (by decide)
  have hkeywords : words Lexeme.keywordWords before cs = _ := hwords (by decide)
  have hliterals : words literalWords before cs = _ := hwords (by decide)
  refine (firstMatch?_skip hblank).trans ((firstMatch?_skip hcomment).trans ?_)
  split_ifs with hin htype hkeyword hliteral
  · simp only [hin, if_true, ite_self] at htypes hkeywords hliterals
    exact (firstMatch?_skip htypes).trans
      ((firstMatch?_skip hkeywords).trans (firstMatch?_skip hliterals))
  · rw [if_pos htype, if_neg hin] at htypes
    exact firstMatch?_take htypes
  · rw [if_neg htype] at htypes
    rw [if_pos hkeyword, if_neg hin] at hkeywords
    exact (firstMatch?_skip htypes).trans (firstMatch?_take hkeywords)
  · rw [if_neg htype] at htypes
    rw [if_neg hkeyword] at hkeywords
    rw [if_pos hliteral, if_neg hin] at hliterals
    exact (firstMatch?_skip htypes).trans
      ((firstMatch?_skip hkeywords).trans (firstMatch?_take hliterals))
  · rw [if_neg htype] at htypes
    rw [if_neg hkeyword] at hkeywords
    rw [if_neg hliteral] at hliterals
    exact (firstMatch?_skip htypes).trans
      ((firstMatch?_skip hkeywords).trans (firstMatch?_skip hliterals))

end Grammar

/-! ### Words -/

section Words

variable {before : Option Char} {c : Char} {cs w : List Char} {line col : Int}

/-- Behind `before` no word goes on, unless one that ends in a digit. -/
def Boundary (before : Option Char) (cs : List Char) : Prop :=
  isInWord before → before.any isDigit ∨ ∀ c ∈ cs.head?, continuesWord c = false

lemma Boundary.isInWord_eq (h : Boundary before (c :: cs)) (hc : continuesWord c) :
    isInWord before = before.any isDigit := by
  cases before with
  | none => rfl
  | some b =>
      cases hdigit : isDigit b with
      | true =>
          have hclass : CharClass.of b = .digit := by simpa [isDigit] using hdigit
          simp [isInWord, isWordChar, hclass, hdigit]
      | false =>
          by_contra hin
          have hin : isInWord (some b) := by simpa [hdigit] using hin
          rcases h hin with h | h
          · simp [hdigit] at h
          · simp [hc] at h

lemma isReserved_ofChars {kind : Kind} :
    isReserved ⟨kind, .ofChars w, line, col⟩ = decide (String.ofList w ∈ reservedWords) := by
  rw [isReserved, Text.chars_ofChars]

lemma startsWord_of_reserved (h : String.ofList (c :: w) ∈ reservedWords) : startsWord c := by
  have hall : ∀ w ∈ reservedWords, w.toList.head?.all startsWord := by decide
  simpa using hall _ h

lemma wordKind_of_not_reserved (h : String.ofList w ∉ reservedWords) :
    wordKind w = .identifier := by
  simp only [reservedWords, List.mem_append, not_or] at h
  exact kindOfWord_iff.mp (.name h.1.1 h.1.2 h.2)

lemma tintAfter_word_of_digit (hdigit : before.any isDigit) :
    tintAfter before ⟨wordKind w, .ofChars w, line, col⟩ = .name := by
  rw [tintAfter, isReserved_ofChars, hdigit]
  by_cases hreserved : String.ofList w ∈ reservedWords
  · simp [hreserved]
  · simp [hreserved, wordKind_of_not_reserved hreserved, kindTint]

lemma tintAfter_word (hdigit : before.any isDigit = false) :
    tintAfter before ⟨wordKind w, .ofChars w, line, col⟩
      = if String.ofList w ∈ Lexeme.typeWords then .keywordType
        else if String.ofList w ∈ Lexeme.keywordWords then .keyword
        else if String.ofList w ∈ literalWords then .constant else .name := by
  rw [tintAfter, isReserved_ofChars, hdigit, wordKind]
  simp only [reservedWords, List.mem_append, Bool.and_false, Bool.false_eq_true, if_false]
  split_ifs <;> simp_all [kindTint]

lemma Grammar.firstMatch?_word (hascii : IsAscii (c :: cs)) (hc : startsWord c)
    (hbefore : Boundary before (c :: cs)) :
    let w := c :: cs.takeWhile continuesWord
    firstMatch? source before (c :: cs)
      = some (tintAfter before ⟨wordKind w, .ofChars w, line, col⟩, w.length) := by
  intro w
  have hcontinues : continuesWord c := by
    simp only [continuesWord, startsWord] at hc ⊢
    grind
  have hw : (c :: cs).takeWhile continuesWord = w := List.takeWhile_cons_of_pos hcontinues
  have hclass := class_of_startsWord hc
  have hblank : run isBlank before (c :: cs) = none := by
    refine run_eq_none ?_
    rcases hclass with h | h <;> simp [isBlank, h]
  have hcomment : lineComment before (c :: cs) = none := by
    refine lineComment_eq_none ?_
    rintro ⟨rfl, -⟩
    exact absurd hc (by decide)
  have hnumber : number before (c :: cs) = none := by
    refine number_eq_none hascii ?_
    rcases hclass with h | h <;> simp [isDigit, h]
  have hname : firstMatch? unreserved before (c :: cs) = some (.name, w.length) := by
    have hidentifier : identifier before (c :: cs) = some w.length :=
      identifier_of_startsWord hascii hc
    exact (firstMatch?_skip hnumber).trans (firstMatch?_take hidentifier)
  rw [firstMatch?_reserved hascii hblank hcomment, hname, hw]
  have hin := hbefore.isInWord_eq hcontinues
  cases hdigit : before.any isDigit with
  | true =>
      rw [hin, hdigit, tintAfter_word_of_digit hdigit]
      rfl
  | false =>
      rw [hin, hdigit, tintAfter_word hdigit, if_neg (by simp)]
      split_ifs <;> rfl

end Words

/-! ### Numbers and marks -/

section Marks

variable {before : Option Char} {c : Char} {cs text rest : List Char} {kind : Kind} {line col : Int}

/-- Nothing but a word is reserved. -/
lemma tintAfter_of_not_startsWord (hc : ¬ startsWord c) :
    tintAfter before ⟨kind, .ofChars (c :: text), line, col⟩ = kindTint false kind := by
  have hnot : decide (String.ofList (c :: text) ∈ reservedWords) = false :=
    decide_eq_false (mt startsWord_of_reserved hc)
  rw [tintAfter, isReserved_ofChars, hnot, Bool.false_and]
  rfl

/-- Where a word does not start, the rules for words do not match. -/
lemma Grammar.firstMatch?_of_not_startsWord (hascii : IsAscii (c :: cs)) (hblank : ¬ isBlank c)
    (hword : ¬ startsWord c) (hcomment : ¬ (c = '/' ∧ cs.head? = some '/')) :
    firstMatch? source before (c :: cs) = firstMatch? unreserved before (c :: cs) := by
  have hnot : String.ofList ((c :: cs).takeWhile continuesWord) ∉ reservedWords := by
    intro hreserved
    by_cases hc : continuesWord c
    · rw [List.takeWhile_cons_of_pos hc] at hreserved
      exact hword (startsWord_of_reserved hreserved)
    · rw [List.takeWhile_cons_of_neg hc] at hreserved
      exact absurd hreserved (by decide)
  simp only [reservedWords, List.mem_append, not_or] at hnot
  rw [firstMatch?_reserved hascii (run_eq_none hblank) (lineComment_eq_none hcomment),
    if_neg hnot.1.1, if_neg hnot.1.2, if_neg hnot.2, ite_self]

lemma Grammar.firstMatch?_number (hascii : IsAscii (c :: (text ++ rest))) (hc : isDigit c)
    (hlong : Longest (.token kind) (c :: text) rest) :
    firstMatch? source before (c :: (text ++ rest))
      = some (tintAfter before ⟨kind, .ofChars (c :: text), line, col⟩, text.length + 1) := by
  have hclass : CharClass.of c = .digit := by simpa [isDigit] using hc
  have hblank : ¬ isBlank c := by simp [isBlank, hclass]
  have hword : ¬ startsWord c := by
    intro h
    rcases class_of_startsWord h with h | h <;> simp [h] at hclass
  have hcomment : ¬ (c = '/' ∧ (text ++ rest).head? = some '/') := by
    rintro ⟨rfl, -⟩
    exact absurd hc (by decide)
  have hkind : kind = .number := Shape.token.inj (hlong.lexeme.eq_of_digit hc).1
  have hnumber : Pattern.number before (c :: (text ++ rest)) = some (text.length + 1) := by
    -- the longest lexeme has a fraction if digits follow the point
    by_cases hpoint : ∃ after, (text ++ rest).dropWhile isDigit = '.' :: after ∧
        after.takeWhile isDigit ≠ []
    · obtain ⟨after, hpoint, hne⟩ := hpoint
      have htext := (hlong.unique (.decimal hc hpoint hne) (by
        rw [List.cons_append, List.cons_append, List.append_assoc, List.cons_append,
          List.takeWhile_append_dropWhile, ← hpoint, List.takeWhile_append_dropWhile])).2.1
      rw [number_of_decimal hascii hc hpoint hne, ← (List.cons.inj htext).2]
    · have hnone (after : List Char) (h : (text ++ rest).dropWhile isDigit = '.' :: after) :
          after.takeWhile isDigit = [] := by
        by_contra hne
        exact hpoint ⟨after, h, hne⟩
      have htext := (hlong.unique (.whole hc hnone) (by
        rw [List.cons_append, List.cons_append, List.takeWhile_append_dropWhile])).2.1
      rw [number_of_whole hascii hc hnone, ← (List.cons.inj htext).2]
  rw [firstMatch?_of_not_startsWord hascii hblank hword hcomment,
    tintAfter_of_not_startsWord hword, hkind]
  exact firstMatch?_take hnumber

/-- A token that is neither a word nor a number is a mark. -/
lemma mark_of_token (h : IsLexeme (.token kind) (c :: text) rest) (hblank : ¬ isBlank c)
    (hword : ¬ startsWord c) (hdigit : ¬ isDigit c) :
    (String.ofList (c :: text), kind) ∈ marks := by
  rcases h.eq_of_other hblank hword hdigit with ⟨hgap, -⟩ | ⟨kind', hkind, hmark⟩
  · simp at hgap
  · rwa [Shape.token.inj hkind]

lemma pairMarks_length : ∀ s ∈ pairMarks, s.toList.length = 2 := by decide

/-- The rules list the longer marks of the scanner's table, -/
lemma mem_pairMarks : ∀ m ∈ marks, m.1.toList.length = 2 →
    m.1 ∈ pairMarks ∧ kindTint false m.2 = .operator := by
  decide

lemma mark_of_pairMarks : ∀ s ∈ pairMarks, (s, .binaryOperator) ∈ marks := by decide

/-- and the shorter ones. -/
lemma mem_singleMarks : ∀ m ∈ marks, m.1.toList.length = 1 →
    (kindTint false m.2 = .operator ∧ m.1.toList.all (· ∈ operatorMarks)) ∨
    (kindTint false m.2 = .punctuation ∧
      m.1.toList.all fun c => c ∉ operatorMarks && c ∈ punctuationMarks) := by
  decide

lemma mark_of_singleMarks (h : c ∈ operatorMarks ++ punctuationMarks) :
    ∃ kind, (String.ofList [c], kind) ∈ marks := by
  have hall : (operatorMarks ++ punctuationMarks).all fun c =>
      (marks.lookup (String.ofList [c])).isSome := by decide
  obtain ⟨kind, hkind⟩ := Option.isSome_iff_exists.mp (List.all_eq_true.mp hall c h)
  exact ⟨kind, mem_marks hkind⟩

lemma ne_newline (hc : ¬ isBlank c) : c ≠ '\n' := by
  rintro rfl
  exact hc (by decide)

/-- The rules for marks come last. -/
lemma Grammar.firstMatch?_mark_rules (hascii : IsAscii (c :: cs)) (hblank : ¬ isBlank c)
    (hword : ¬ startsWord c) (hdigit : ¬ isDigit c)
    (hcomment : ¬ (c = '/' ∧ cs.head? = some '/')) :
    firstMatch? source before (c :: cs) = firstMatch? marks before (c :: cs) := by
  have hnumber : Pattern.number before (c :: cs) = none := number_eq_none hascii hdigit
  have hidentifier : identifier before (c :: cs) = none := identifier_eq_none hascii hword
  rw [firstMatch?_of_not_startsWord hascii hblank hword hcomment]
  exact (firstMatch?_skip hnumber).trans (firstMatch?_skip hidentifier)

lemma any_pairMarks (before : Option Char) (cs : List Char) :
    any (pairMarks.map string) before cs
      = if String.ofList (cs.take 2) ∈ pairMarks then some 2 else none :=
  any_string pairMarks_length

/-- A mark of two characters at the front is a lexeme. -/
lemma lexeme_of_pairMarks (h : String.ofList ((c :: cs).take 2) ∈ pairMarks) :
    ∃ d rest, cs = d :: rest ∧ IsLexeme (.token .binaryOperator) [c, d] rest := by
  cases cs with
  | nil => simpa using pairMarks_length _ h
  | cons d rest => exact ⟨d, rest, rfl, .mark (mark_of_pairMarks _ h)⟩

/-- What is shown of a single character if the rules for marks decide. -/
lemma Grammar.firstMatch?_single (hline : c ≠ '\n')
    (hpair : String.ofList ((c :: cs).take 2) ∉ pairMarks) :
    firstMatch? marks before (c :: cs)
      = some (if c ∈ operatorMarks then .operator
          else if c ∈ punctuationMarks then .punctuation else .error, 1) := by
  have hnone : any (pairMarks.map string) before (c :: cs) = none :=
    (any_pairMarks _ _).trans (if_neg hpair)
  refine (firstMatch?_skip hnone).trans ?_
  have hoperators : one (· ∈ operatorMarks) before (c :: cs)
      = if c ∈ operatorMarks then some 1 else none := by simp [one]
  have hpunctuations : one (· ∈ punctuationMarks) before (c :: cs)
      = if c ∈ punctuationMarks then some 1 else none := by simp [one]
  have hany : one (· ≠ '\n') before (c :: cs) = some 1 := by simp [one, hline]
  split_ifs with hoperator hpunctuation
  · exact firstMatch?_take (hoperators.trans (if_pos hoperator))
  · have hskip := hoperators.trans (if_neg hoperator)
    exact (firstMatch?_skip hskip).trans
      (firstMatch?_take (hpunctuations.trans (if_pos hpunctuation)))
  · have hskip := hoperators.trans (if_neg hoperator)
    have hskip' := hpunctuations.trans (if_neg hpunctuation)
    exact (firstMatch?_skip hskip).trans ((firstMatch?_skip hskip').trans (firstMatch?_take hany))

lemma Grammar.firstMatch?_mark (hascii : IsAscii (c :: (text ++ rest))) (hblank : ¬ isBlank c)
    (hword : ¬ startsWord c) (hdigit : ¬ isDigit c)
    (hlong : Longest (.token kind) (c :: text) rest) :
    firstMatch? source before (c :: (text ++ rest))
      = some (tintAfter before ⟨kind, .ofChars (c :: text), line, col⟩, text.length + 1) := by
  have hcomment : ¬ (c = '/' ∧ (text ++ rest).head? = some '/') := by
    rintro ⟨rfl, hhead⟩
    obtain ⟨body, hbody⟩ := List.head?_eq_some_iff.mp hhead
    have hgap := (hlong.unique (.comment body) (by
      rw [List.cons_append, hbody]
      simp only [List.cons_append, List.takeWhile_append_dropWhile])).1
    simp at hgap
  have hmark := mark_of_token hlong.lexeme hblank hword hdigit
  rw [firstMatch?_mark_rules hascii hblank hword hdigit hcomment, tintAfter_of_not_startsWord hword]
  rcases length_of_mark hmark with rfl | ⟨d, rfl⟩
  · have hpair : String.ofList ((c :: ([] ++ rest)).take 2) ∉ pairMarks := by
      intro hpair
      obtain ⟨d, rest', hrest, hlexeme⟩ := lexeme_of_pairMarks hpair
      have hle := hlong.longest hlexeme (by simpa using hrest.symm)
      simp at hle
    rw [firstMatch?_single (ne_newline hblank) hpair]
    rcases mem_singleMarks _ hmark (by simp) with ⟨htint, hall⟩ | ⟨htint, hall⟩
    · have hc : c ∈ operatorMarks := by simpa using hall
      rw [htint, if_pos hc]
      rfl
    · have hc : c ∉ operatorMarks ∧ c ∈ punctuationMarks := by simpa using hall
      rw [htint, if_neg hc.1, if_pos hc.2]
      rfl
  · obtain ⟨hpair, htint⟩ := mem_pairMarks _ hmark (by simp)
    have hfound : any (pairMarks.map string) before (c :: ([d] ++ rest)) = some 2 := by
      rw [any_pairMarks]
      exact if_pos hpair
    rw [htint]
    exact firstMatch?_take hfound

lemma Grammar.firstMatch?_fault (hascii : IsAscii (c :: cs)) (hnone : NoLexeme (c :: cs)) :
    firstMatch? source before (c :: cs) = some (.error, 1) := by
  have hno {shape : Shape} : ¬ IsLexeme shape [c] cs := fun h => hnone rfl h
  have hblank : ¬ isBlank c := fun h => hno (.blank h)
  have hword : ¬ startsWord c := fun h => hno (.of_startsWord h (by simp))
  have hdigit : ¬ isDigit c := fun h => hno (.whole h (by simp))
  have hsingle : c ∉ operatorMarks ++ punctuationMarks := by
    intro hsingle
    obtain ⟨kind, hmark⟩ := mark_of_singleMarks hsingle
    exact hno (.mark hmark)
  have hcomment : ¬ (c = '/' ∧ cs.head? = some '/') := by
    rintro ⟨rfl, -⟩
    exact hsingle (by decide)
  have hpair : String.ofList ((c :: cs).take 2) ∉ pairMarks := by
    intro hpair
    obtain ⟨d, rest, rfl, hlexeme⟩ := lexeme_of_pairMarks hpair
    exact hnone rfl hlexeme
  rw [List.mem_append, not_or] at hsingle
  rw [firstMatch?_mark_rules hascii hblank hword hdigit hcomment,
    firstMatch?_single (ne_newline hblank) hpair, if_neg hsingle.1, if_neg hsingle.2]

end Marks

/-! ### Tokens -/

section Tokens

variable {before : Option Char} {c : Char} {text rest : List Char} {kind : Kind} {line col : Int}

/-- A longest lexeme that is a word goes as far as words go. -/
lemma word_of_longest (hlong : Longest (.token kind) (c :: text) rest) (hc : startsWord c) :
    kind = wordKind (c :: text) ∧ text = (text ++ rest).takeWhile continuesWord ∧
      rest = (text ++ rest).dropWhile continuesWord := by
  have hsplit : c :: text ++ rest = c :: (text ++ rest).takeWhile continuesWord
      ++ (text ++ rest).dropWhile continuesWord := by
    rw [List.cons_append, List.cons_append, List.takeWhile_append_dropWhile]
  obtain ⟨hkind, htext, hrest⟩ := hlong.unique (.word hc _) hsplit
  rw [← htext] at hkind
  exact ⟨Shape.token.inj hkind, (List.cons.inj htext).2, hrest⟩

/-- **Where the longest lexeme is a token, the first match is that token.** -/
theorem Grammar.firstMatch?_token (hascii : IsAscii (c :: (text ++ rest)))
    (hbefore : Boundary before (c :: (text ++ rest)))
    (hlong : Longest (.token kind) (c :: text) rest) :
    firstMatch? source before (c :: (text ++ rest))
      = some (tintAfter before ⟨kind, .ofChars (c :: text), line, col⟩, text.length + 1) := by
  by_cases hblank : isBlank c
  · simpa using (hlong.lexeme.eq_of_blank hblank).1
  by_cases hword : startsWord c
  · obtain ⟨rfl, htext, -⟩ := word_of_longest hlong hword
    rw [firstMatch?_word hascii hword hbefore, ← htext]
    rfl
  by_cases hdigit : isDigit c
  · exact firstMatch?_number hascii hdigit hlong
  · exact firstMatch?_mark hascii hblank hword hdigit hlong

lemma not_isWordChar (hc : c.toNat < 128)
    (hclass : CharClass.of c = .blank ∨ CharClass.of c = .graphic) : isWordChar c = false := by
  rcases hclass with h | h <;>
    simp only [isWordChar, h, Bool.or_eq_false_iff, decide_eq_false_iff_not] <;> omega

lemma Boundary.of_not_isWordChar (h : ∀ d ∈ before, isWordChar d = false) :
    Boundary before rest := by
  intro hin
  cases before with
  | none => simp [isInWord] at hin
  | some d => simp [isInWord, h d rfl] at hin

lemma getLast?_any {p : Char → Bool} (hne : text ≠ []) (h : ∀ d ∈ text, p d) :
    text.getLast?.any p := by
  rw [List.getLast?_eq_some_getLast hne]
  exact h _ (List.getLast_mem hne)

/-- A token ends where no word goes on, unless it is a number. -/
lemma Boundary.of_token (hascii : IsAscii (c :: (text ++ rest)))
    (hlong : Longest (.token kind) (c :: text) rest) : Boundary (c :: text).getLast? rest := by
  by_cases hblank : isBlank c
  · simpa using (hlong.lexeme.eq_of_blank hblank).1
  by_cases hword : startsWord c
  · rintro -
    rw [(word_of_longest hlong hword).2.2]
    exact .inr (dropWhile_head continuesWord _)
  by_cases hdigit : isDigit c
  · rintro -
    left
    rcases (hlong.lexeme.eq_of_digit hdigit).2 with hall | ⟨more, fraction, rfl, -, hne, hfraction⟩
    · exact getLast?_any (by simp) (List.forall_mem_cons.mpr ⟨hdigit, hall⟩)
    · have hlast : (c :: (more ++ '.' :: fraction)).getLast? = fraction.getLast? := by
        rw [List.append_cons, ← List.cons_append, List.getLast?_append_of_ne_nil _ hne]
      rw [hlast]
      exact getLast?_any hne hfraction
  · refine .of_not_isWordChar fun d hd => ?_
    have hd : d ∈ c :: text := List.mem_of_getLast? hd
    have hclass : CharClass.of d = .graphic :=
      marks_graphic _ (mark_of_token hlong.lexeme hblank hword hdigit) d (by simpa using hd)
    exact not_isWordChar (hascii d (List.mem_append_left rest hd)) (.inr hclass)

lemma kind_named (h : IsLexeme (.token kind) text rest) : kind ∈ Kind.named := by
  cases h with
  | word _ _ hkind => cases hkind <;> decide
  | whole => decide
  | decimal => decide
  | mark hmark =>
      have hall : ∀ m ∈ marks, m.2 ∈ Kind.named := by decide
      exact hall _ hmark

lemma tintAfter_of_named {t : Token} (h : t.kind ∈ Kind.named) :
    tintAfter before t ≠ .text ∧ tintAfter before t ≠ .comment ∧ tintAfter before t ≠ .error := by
  have hall : ∀ kind ∈ Kind.named, ∀ reserved, kindTint reserved kind ≠ .text ∧
      kindTint reserved kind ≠ .comment ∧ kindTint reserved kind ≠ .error := by decide
  unfold tintAfter
  split_ifs
  · decide
  · exact hall _ h _

end Tokens

/-! ## Agreement -/

section Pieces

variable {g : Grammar} {before : Option Char} {c : Char} {cs text rest : List Char} {tint : Tint}

lemma pieces_of_match (hcs : text ++ rest = cs)
    (h : g.firstMatch? before (c :: cs) = some (tint, text.length + 1)) :
    pieces g before (c :: cs) = ⟨tint, c :: text⟩ :: pieces g (c :: text).getLast? rest := by
  subst hcs
  rw [pieces]
  simp [h]

lemma pieces_blank (hc : isBlank c) (cs : List Char) :
    pieces .source before (c :: cs) = ⟨.text, c :: cs.takeWhile isBlank⟩ ::
      pieces .source (c :: cs.takeWhile isBlank).getLast? (cs.dropWhile isBlank) :=
  pieces_of_match List.takeWhile_append_dropWhile (Grammar.firstMatch?_blank hc)

/-- Pieces are cut from the text and nothing is lost. -/
lemma flatMap_pieces (g : Grammar) (before : Option Char) (cs : List Char) :
    (pieces g before cs).flatMap Piece.text = cs := by
  induction before, cs using pieces.induct g with
  | case1 => simp [pieces]
  | case2 before c cs tint length hmatch text ih =>
      have hpieces : pieces g before (c :: cs)
          = ⟨tint, text⟩ :: pieces g text.getLast? (cs.drop (length - 1)) := by
        rw [pieces, hmatch]
      rw [hpieces, List.flatMap_cons, ih, List.cons_append, List.take_append_drop]

end Pieces

/-- The pieces of some characters agree with the tokens found in them, or with the error. -/
structure Agrees (before : Option Char) (ps : List Piece) (ts : List Token)
    (e : Option ScanError) : Prop where
  error : (∃ p ∈ ps, p.tint = .error) ↔ e ≠ none
  tokens : e = none → List.Forall₂ Shows (significant before ps) ts

namespace Agrees

variable {before : Option Char} {c : Char} {cs text : List Char} {tint : Tint} {ps : List Piece}
  {ts : List Token} {t : Token} {e : Option ScanError}

lemma gap_iff (h : tint = .text ∨ tint = .comment) :
    Agrees before (⟨tint, text⟩ :: ps) ts e ↔ Agrees text.getLast? ps ts e := by
  have hsignificant : significant before (⟨tint, text⟩ :: ps) = significant text.getLast? ps := by
    rw [significant, if_pos (by simpa using h)]
  have herror : (∃ p ∈ (⟨tint, text⟩ :: ps : List Piece), p.tint = .error) ↔
      ∃ p ∈ ps, p.tint = .error := by
    rcases h with rfl | rfl <;> simp
  constructor
  · rintro ⟨h₁, h₂⟩
    exact ⟨herror.symm.trans h₁, hsignificant ▸ h₂⟩
  · rintro ⟨h₁, h₂⟩
    exact ⟨herror.trans h₁, hsignificant ▸ h₂⟩

lemma token (hshows : Shows (before, ⟨tint, text⟩) t)
    (htint : tint ≠ .text ∧ tint ≠ .comment ∧ tint ≠ .error)
    (h : Agrees text.getLast? ps ts e) : Agrees before (⟨tint, text⟩ :: ps) (t :: ts) e where
  error := by
    rw [← h.error]
    simp [htint.2.2]
  tokens hnone := by
    rw [significant, if_neg (by simp [htint])]
    exact .cons hshows (h.tokens hnone)

lemma fault {e : ScanError} : Agrees before (⟨.error, text⟩ :: ps) ts (some e) where
  error := by simp
  tokens hnone := by simp at hnone

/-- The scanner passes over blanks one at a time, and the colouring over all of them at once. -/
lemma blank_iff (hc : isBlank c) (cs : List Char) :
    Agrees before (pieces .source before (c :: cs)) ts e ↔
      Agrees (some c) (pieces .source (some c) cs) ts e := by
  rw [pieces_blank hc, gap_iff (.inl rfl)]
  cases cs with
  | nil => rfl
  | cons d cs =>
      by_cases hd : isBlank d
      · rw [pieces_blank hd, gap_iff (.inl rfl), List.takeWhile_cons_of_pos hd,
          List.dropWhile_cons_of_pos hd, List.getLast?_cons_cons]
      · rw [List.takeWhile_cons_of_neg hd, List.dropWhile_cons_of_neg hd]
        rfl

end Agrees

/-- **Agreement from any place on**, at which a token or a gap may start. -/
theorem agrees_of_lexes {seen cs : List Char} {ts : List Token} {e : Option ScanError}
    (h : Lexes seen cs ts e) {before : Option Char} (hascii : IsAscii cs)
    (hbefore : Boundary before cs) : Agrees before (pieces .source before cs) ts e := by
  -- the boundary is the invariant: no word is cut, so a reserved word is found by both or by none
  induction h generalizing before with
  | done => exact ⟨by simp [pieces], fun _ => by simp [pieces, significant]⟩
  | @gap _ text rest _ _ hlong _ ih =>
      cases hlong.lexeme with
      | @blank c _ hc =>
          rw [List.singleton_append, Agrees.blank_iff hc]
          have hclass : CharClass.of c = .blank := by simpa [isBlank] using hc
          refine ih hascii.tail (.of_not_isWordChar ?_)
          rintro d ⟨⟩
          exact not_isWordChar hascii.head (.inl hclass)
      | @comment body _ _ hrest =>
          have hline := (hlong.unique (.comment (body ++ rest)) (by
            simp only [List.cons_append, List.takeWhile_append_dropWhile])).2.1
          have hmatch : Grammar.firstMatch? .source before ('/' :: '/' :: (body ++ rest))
              = some (.comment, ('/' :: body).length + 1) := by
            rw [Grammar.firstMatch?_comment, (List.cons.inj hline).2]
            rfl
          rw [List.cons_append, List.cons_append, pieces_of_match (List.cons_append ..) hmatch,
            Agrees.gap_iff (.inr rfl)]
          refine ih (fun d hd => hascii d (List.mem_append_right _ hd)) fun _ => .inr fun d hd => ?_
          rw [hrest d hd]
          decide
  | token hlong _ ih =>
      obtain ⟨c, text, rfl⟩ := List.exists_cons_of_ne_nil hlong.lexeme.ne_nil
      rw [List.cons_append, pieces_of_match rfl (Grammar.firstMatch?_token hascii hbefore hlong)]
      refine .token ⟨rfl, rfl⟩ (tintAfter_of_named (kind_named hlong.lexeme)) (ih ?_ ?_)
      · exact fun d hd => hascii d (List.mem_append_right _ hd)
      · exact .of_token hascii hlong
  | @fault _ rest c hnone =>
      have hpieces : pieces .source before (c :: rest)
          = ⟨.error, [c]⟩ :: pieces .source (some c) rest :=
        pieces_of_match rfl (Grammar.firstMatch?_fault hascii hnone)
      rw [hpieces]
      exact .fault

/-- A text with every line ending in a bare newline. -/
def plainLines (s : Text) : Text := .ofChars (bareNewlines s.chars)

/-- **Colouring agrees with scanning.**  The pieces of an ASCII text make up the text with plain
line ends.  There is an error among them exactly if the scanner fails on that text.  If it does not,
then the pieces that are neither blank nor comments show the scanner's tokens, in order. -/
theorem tokenise_agrees_with_scan (s : Text) (h : ∀ b ∈ s.bytes, b < 128) :
    (tokenise .source s).flatMap Piece.text = (plainLines s).chars ∧
    ((∃ p ∈ tokenise .source s, p.tint = .error) ↔ ∃ e, scan (plainLines s) = .error e) ∧
    ∀ ts, scan (plainLines s) = .ok ts →
      List.Forall₂ Shows (significant none (tokenise .source s)) ts := by
  have hchars : (plainLines s).chars = bareNewlines s.chars := Text.chars_ofChars _
  have hascii : IsAscii s.chars := by
    have hsmall : ∀ n < 128, (Char.ofNat n).toNat < 128 := by decide
    rw [Text.chars_of_ascii h]
    intro c hc
    obtain ⟨b, hb, rfl⟩ := List.mem_map.mp hc
    exact hsmall _ (h b hb)
  have hagrees {ts : List Token} {e : Option ScanError}
      (hlexes : Lexes [] (plainLines s).chars ts e) : Agrees none (tokenise .source s) ts e := by
    rw [hchars] at hlexes
    refine agrees_of_lexes hlexes hascii.bareNewlines ?_
    simp [Boundary, isInWord]
  refine ⟨(flatMap_pieces _ _ _).trans hchars.symm, ?_, fun ts hscan => ?_⟩
  · cases hscan : scan (plainLines s) with
    | ok ts => simpa using (hagrees (scan_eq_ok_iff.mp hscan)).error
    | error e =>
        obtain ⟨ts, hlexes⟩ := scan_eq_error_iff.mp hscan
        simpa using (hagrees hlexes).error
  · exact (hagrees (scan_eq_ok_iff.mp hscan)).tokens rfl

/-- Two kinds of line ends and a type behind a digit. -/
theorem tokenise_agrees_with_scan_type_behind_digit :
    let s : Text := "int n = 5int;\r// end\r\nwhile true"
    let ts : List Token := [⟨.type, "int", 1, 1⟩, ⟨.identifier, "n", 1, 5⟩, ⟨.equals, "=", 1, 7⟩,
      ⟨.number, "5", 1, 9⟩, ⟨.type, "int", 1, 10⟩, ⟨.terminator, ";", 1, 13⟩,
      ⟨.keyword, "while", 3, 1⟩, ⟨.number, "true", 3, 7⟩]
    (∀ b ∈ s.bytes, b < 128) ∧ scan (plainLines s) = .ok ts ∧
    (¬ ∃ p ∈ tokenise .source s, p.tint = .error) ∧
    List.Forall₂ Shows (significant none (tokenise .source s)) ts ∧
    (some '5', ⟨.name, ['i', 'n', 't']⟩) ∈ significant none (tokenise .source s) := by
  intro s ts
  have hascii : ∀ b ∈ s.bytes, b < 128 := by decide +kernel
  have hscan : scan (plainLines s) = .ok ts := by decide +kernel
  obtain ⟨-, herror, htokens⟩ := tokenise_agrees_with_scan s hascii
  refine ⟨hascii, hscan, ?_, htokens ts hscan, by decide +kernel⟩
  rw [herror, hscan]
  simp

end Scriptlet.Highlight
