import Mathlib
import Scriptlet.Proofs.Newlines

/-!
# Layout

Between two tokens there may be any blank characters and comments.  This file says that it does not
matter which: take the tokens of any source, write their literals one after the other with separators
around them, and the scanner finds the same kinds and literals again.

A separator (`IsSeparator`) starts with a blank character.  Behind it come blank characters and
comments in any order (`Filler`); the text of a comment is any bytes without a newline.

* `IsLexeme.front_blank` — a token in front of a blank character is read as that token.  A lexeme that
  fills the source is the longest one there, so nothing has to be known about its family.
* `Yields` — what is read from some characters on, places apart: it can be put together from the back,
  a token or a gap at a time.
* **`scan_layout`** — the literals of scanned tokens, with a separator before each and one behind the
  last, scan as the same kinds and literals.
-/

namespace Scriptlet

/-! ## Tokens in front of a blank character -/

/-- Two slashes and what follows them up to a newline are a gap. -/
lemma Lexeme.front_slashes (body : List Char) :
    front '/' ('/' :: body) = ⟨.gap, (('/' :: body).takeWhile (· ≠ '\n')).length⟩ := by
  have hslash : isBlank '/' = false := by decide
  simp [front, hslash]

namespace IsLexeme

variable {kind : Kind} {c b : Char} {text rest : List Char}

/-- What follows a token has no part in it. -/
lemma alone (h : IsLexeme (.token kind) text rest) : IsLexeme (.token kind) text [] := by
  cases h with
  | word hc hmore hkind => exact .word hc hmore hkind
  | whole hd hmore => exact .whole hd hmore
  | decimal hd hmore hne hfraction => exact .decimal hd hmore hne hfraction
  | mark hmark => exact .mark hmark

/-- A token that is all of the source is read as that token. -/
lemma front_alone (h : IsLexeme (.token kind) (c :: text) rest) :
    Lexeme.front c text = ⟨.token kind, text.length⟩ := by
  have hlong : Longest (.token kind) (c :: text) [] := by
    refine ⟨h.alone, fun {shape' text' rest'} _ heq => ?_⟩
    have hlength := congrArg List.length heq
    simp only [List.length_append, List.length_nil] at hlength
    omega
  have hchosen := Lexeme.front_chosen c text
  generalize Lexeme.front c text = chosen at hchosen
  cases hchosen with
  | @lexeme shape text' rest' hlong' hcs =>
      obtain ⟨hshape, htext, -⟩ := hlong.unique hlong' (by simp [hcs])
      rw [← hshape, ← (List.cons.inj htext).2]
  | nothing hnone => exact absurd h.alone (hnone (by simp))
  | @point digits after hcs hlong' _ =>
      obtain ⟨-, -, hrest⟩ := hlong.unique hlong' (by simp [hcs])
      simp at hrest

/-- **A token in front of a blank character is read as that token.** -/
theorem front_blank (h : IsLexeme (.token kind) (c :: text) rest) (hb : isBlank b)
    (cs : List Char) : Lexeme.front c (text ++ b :: cs) = ⟨.token kind, text.length⟩ := by
  rw [← h.front_alone]
  refine Lexeme.front_append_blank hb text cs fun hc htext => ?_
  obtain ⟨body, rfl⟩ := List.head?_eq_some_iff.mp htext
  subst hc
  simpa using (Lexeme.front_slashes body).symm.trans h.front_alone

end IsLexeme

/-- Every token of a source is a lexeme. -/
lemma Lexes.isLexeme {before cs : List Char} {ts : List Token} {e : Option ScanError}
    (h : Lexes before cs ts e) {t : Token} (ht : t ∈ ts) :
    ∃ text rest, IsLexeme (.token t.kind) text rest ∧ t.literal = .ofChars text := by
  induction h with
  | done => simp at ht
  | gap _ _ ih => exact ih ht
  | token hlong _ ih =>
      rcases List.mem_cons.mp ht with rfl | ht
      · exact ⟨_, _, hlong.lexeme, rfl⟩
      · exact ih ht
  | fault _ => simp at ht

/-! ## Readings without places -/

/-- Wherever the characters start, they are read as these kinds and literals, and without a fault. -/
def Yields (cs : List Char) (words : List (Kind × Text)) : Prop :=
  ∀ p, (lex p cs).fault = none ∧ (lex p cs).tokens.map (fun t => (t.kind, t.literal)) = words

namespace Yields

variable {c b : Char} {text body rest cs : List Char} {kind : Kind} {words : List (Kind × Text)}

lemma nil : Yields [] [] := by
  intro p
  simp [lex]

lemma gap (hfront : Lexeme.front c (text ++ cs) = ⟨.gap, text.length⟩) (h : Yields cs words) :
    Yields (c :: (text ++ cs)) words := by
  intro p
  rw [lex_of_gap p hfront]
  exact h _

lemma blank (hc : isBlank c) (h : Yields cs words) : Yields (c :: cs) words := by
  have hfront : Lexeme.front c ([] ++ cs) = ⟨.gap, 0⟩ := by
    simp [Lexeme.front, hc]
  exact gap hfront h

lemma comment (hbody : '\n' ∉ body) (h : Yields cs words) :
    Yields ('/' :: '/' :: (body ++ '\n' :: cs)) words := by
  have hall : ∀ d ∈ '/' :: body, decide (d ≠ '\n') = true := by
    intro d hd
    rcases List.mem_cons.mp hd with rfl | hd
    · decide
    · exact decide_eq_true (ne_of_mem_of_not_mem hd hbody)
  have hfront : Lexeme.front '/' ('/' :: body ++ '\n' :: cs) = ⟨.gap, ('/' :: body).length⟩ := by
    rw [Lexeme.front_append_blank (by decide) _ _ fun _ _ => rfl, Lexeme.front_slashes,
      List.takeWhile_eq_self_iff.mpr hall]
  exact gap hfront (blank (by decide) h)

lemma token (hlexeme : IsLexeme (.token kind) text rest) (hb : isBlank b)
    (h : Yields (b :: cs) words) :
    Yields (text ++ b :: cs) ((kind, .ofChars text) :: words) := by
  obtain ⟨c, text, rfl⟩ := List.exists_cons_of_ne_nil hlexeme.ne_nil
  intro p
  obtain ⟨hfault, hwords⟩ := h (p.after (c :: text))
  rw [List.cons_append, lex_of_token p (hlexeme.front_blank hb cs)]
  refine ⟨hfault, ?_⟩
  simp only [Lexed.prepend, List.singleton_append, List.map_cons, hwords]

end Yields

/-! ## Separators -/

lemma Text.append_assoc (a b c : Text) : a ++ b ++ c = a ++ (b ++ c) :=
  congrArg Text.mk (List.append_assoc a.bytes b.bytes c.bytes)

/-- Blank characters, and comments that end in a newline, in any order.  The text of a comment is any
bytes. -/
inductive Filler : Text → Prop where
  | nothing : Filler ""
  | blank {c : Char} {rest : Text} : isBlank c → Filler rest → Filler (.ofChars [c] ++ rest)
  | comment {body rest : Text} : Text.newline ∉ body.bytes → Filler rest →
      Filler ("//" ++ (body ++ "\n" ++ rest))

/-- A blank character, and anything blank behind it. -/
inductive IsSeparator : Text → Prop where
  | intro {c : Char} {rest : Text} : isBlank c → Filler rest → IsSeparator (.ofChars [c] ++ rest)

lemma Filler.yields {filler after : Text} {words : List (Kind × Text)} (h : Filler filler)
    (hafter : Yields after.chars words) : Yields (filler ++ after).chars words := by
  induction h with
  | nothing => exact hafter
  | blank hc _ ih =>
      rw [Text.append_assoc, Text.chars_ofChars_append]
      exact ih.blank hc
  | @comment body rest hbody _ ih =>
      have hchars : ("//" ++ (body ++ "\n" ++ rest) ++ after).chars
          = '/' :: '/' :: (body.chars ++ '\n' :: (rest ++ after).chars) := by
        rw [Text.append_assoc, Text.append_assoc, ← Text.chars_append_newline]
        exact Text.chars_ofChars_append ['/', '/'] _
      have hnone : '\n' ∉ body.chars := by
        rw [← List.count_eq_zero, Text.count_newline, List.count_eq_zero]
        exact hbody
      rw [hchars]
      exact ih.comment hnone

/-- The literals of tokens, each with the separator that follows it. -/
def spread (ts : List Token) (separators : List Text) : Text :=
  .concat (List.zipWith (fun t separator => t.literal ++ separator) ts separators)

lemma spread_cons (t : Token) (ts : List Token) (separator : Text) (separators : List Text) :
    spread (t :: ts) (separator :: separators)
      = t.literal ++ (separator ++ spread ts separators) :=
  congrArg Text.mk (List.append_assoc _ _ _)

lemma spread_yields {ts : List Token} {separators : List Text}
    (hts : ∀ t ∈ ts, ∃ text rest, IsLexeme (.token t.kind) text rest ∧ t.literal = .ofChars text)
    (hlength : separators.length = ts.length) (hseparators : ∀ s ∈ separators, IsSeparator s) :
    Yields (spread ts separators).chars (ts.map fun t => (t.kind, t.literal)) := by
  induction ts generalizing separators with
  | nil =>
      obtain rfl : separators = [] := List.eq_nil_of_length_eq_zero hlength
      have hchars : (spread [] []).chars = [] := Text.chars_ofChars []
      rw [hchars]
      exact .nil
  | cons t ts ih =>
      cases separators with
      | nil => simp at hlength
      | cons separator separators =>
          have hrest := ih (fun u hu => hts u (by simp [hu])) (by simpa using hlength)
            fun s hs => hseparators s (by simp [hs])
          obtain ⟨text, rest, hlexeme, hliteral⟩ := hts t (by simp)
          obtain ⟨hc, hfiller⟩ := hseparators separator (by simp)
          rw [spread_cons, hliteral, Text.chars_ofChars_append, Text.append_assoc,
            Text.chars_ofChars_append, List.map_cons, hliteral]
          exact .token hlexeme hc ((hfiller.yields hrest).blank hc)

/-- **Layout does not matter.**  Take the tokens of any source, and write a separator and then the
literals of the tokens in order, each with a separator behind it.  This scans, and the kinds and
literals are the same. -/
theorem scan_layout (source : Text) (ts : List Token) (first : Text) (separators : List Text)
    (hscan : scan source = .ok ts) (hlength : separators.length = ts.length)
    (hseparators : ∀ s ∈ first :: separators, IsSeparator s) :
    ∃ ts', scan (first ++ spread ts separators) = .ok ts' ∧
      ts'.map (fun t => (t.kind, t.literal)) = ts.map fun t => (t.kind, t.literal) := by
  have hyields := spread_yields (fun t ht => (scan_eq_ok_iff.mp hscan).isLexeme ht) hlength
    fun s hs => hseparators s (by simp [hs])
  obtain ⟨hc, hfiller⟩ := hseparators first (by simp)
  obtain ⟨hfault, hwords⟩ := (Filler.blank hc hfiller).yields hyields .start
  exact ⟨_, by simp only [scan, hfault], hwords⟩

/-- Neighbours that would join if they touched, and a comment whose text ends in the middle of a
character. -/
theorem scan_layout_neighbours :
    let source : Text := "= = / /"
    let ts : List Token := [⟨.equals, "=", 1, 1⟩, ⟨.equals, "=", 1, 3⟩, ⟨.binaryOperator, "/", 1, 5⟩,
      ⟨.binaryOperator, "/", 1, 7⟩]
    let torn : Text := " " ++ ("//" ++ (⟨[0xE2, 0x82]⟩ ++ "\n" ++ ""))
    let separators : List Text := ["\u2003", torn, " ", "\n"]
    scan source = .ok ts ∧
    ∃ ts', scan (torn ++ spread ts separators) = .ok ts' ∧
      ts'.map (fun t => (t.kind, t.literal)) = ts.map fun t => (t.kind, t.literal) := by
  intro source ts torn separators
  have hscan : scan source = .ok ts := by decide +kernel
  have hblank (c : Char) (hc : isBlank c) : IsSeparator (.ofChars [c] ++ "") := .intro hc .nothing
  have htorn : IsSeparator torn := .intro (c := ' ') (by decide) (.comment (by decide) .nothing)
  refine ⟨hscan, scan_layout source ts torn separators hscan rfl fun s hs => ?_⟩
  simp only [separators, List.mem_cons, List.not_mem_nil, or_false] at hs
  rcases hs with rfl | rfl | rfl | rfl | rfl
  · exact htorn
  · exact hblank '\u2003' (by decide)
  · exact htorn
  · exact hblank ' ' (by decide)
  · exact hblank '\n' (by decide)

end Scriptlet
