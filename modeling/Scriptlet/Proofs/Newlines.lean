import Mathlib
import Scriptlet.Proofs.MaximalMunch

/-!
# Scanning line by line

The scanner looks beyond the lexeme that it reads: for the second character of a mark, the digits
behind a point, the end of a word or of a comment.  What it finds there may be a blank character, and
then it decides as it would at the end of the source (`Lexeme.front_append_blank`).  Only a comment
goes on behind a blank character, unless that is a newline.

So a source can be cut at a newline, wherever the newline stands: in a comment, behind a point
without digits, behind half of a mark, or behind bytes that begin a character and do not end it.

* `lex_append_newline` — the characters in front of a newline are read as if nothing followed, and
  those behind it as if nothing stood before, from the next line on.
* `lex_move` — where a reading starts shows in the places of its tokens and in nothing else, so
  a reading from so many lines further down finds the same there (`lex_down`).
* **`scan_append_newline`** — the tokens of two texts with a newline between are the tokens of the
  first and then those of the second, so many lines further down as the first text and the newline
  fill.  If a text fails, so do they together, with its error.
-/

namespace Scriptlet

/-! ## A blank character ends a lexeme -/

section Stop

variable {p : Char → Bool} {b : Char}

lemma takeWhile_append_stop (hb : p b = false) (cs rest : List Char) :
    (cs ++ b :: rest).takeWhile p = cs.takeWhile p := by
  induction cs with
  | nil => simp [hb]
  | cons c cs ih => cases hc : p c <;> simp [hc, ih]

lemma dropWhile_append_stop (hb : p b = false) (cs rest : List Char) :
    (cs ++ b :: rest).dropWhile p = cs.dropWhile p ++ b :: rest := by
  induction cs with
  | nil => simp [hb]
  | cons c cs ih => cases hc : p c <;> simp [hc, ih]

end Stop

namespace Lexeme

variable {b c : Char}

lemma class_of_blank (hb : isBlank b) : CharClass.of b = .blank := by
  simpa [isBlank] using hb

lemma isDigit_of_blank (hb : isBlank b) : isDigit b = false := by
  simp [isDigit, class_of_blank hb]

lemma continuesWord_of_blank (hb : isBlank b) : continuesWord b = false := by
  have hconnector : b ≠ '_' := by
    rintro rfl
    exact absurd (class_of_blank hb) (by decide)
  simp [continuesWord, isLetter, isDigit, class_of_blank hb, hconnector]

lemma number_append_blank (hb : isBlank b) (cs rest : List Char) :
    number (cs ++ b :: rest) = number cs := by
  have hdigit := isDigit_of_blank hb
  have hpoint : b ≠ '.' := by
    rintro rfl
    exact absurd (class_of_blank hb) (by decide)
  simp only [number, takeWhile_append_stop hdigit, dropWhile_append_stop hdigit]
  cases cs.dropWhile isDigit with
  | nil => simp [hpoint]
  | cons d after =>
      by_cases hd : d = '.'
      · subst hd
        simp only [List.cons_append, takeWhile_append_stop hdigit]
      · simp [hd]

/-- No mark has a blank character in it. -/
lemma mark_append_blank (hb : isBlank b) (c : Char) (cs rest : List Char) :
    mark c (cs ++ b :: rest) = mark c cs := by
  have hpair : pairKind? c (cs ++ b :: rest) = pairKind? c cs := by
    cases cs with
    | cons d cs => rfl
    | nil =>
        refine lookup_eq_none_iff.mpr fun kind hmark => ?_
        have hgraphic := marks_graphic _ hmark b (by simp)
        simp [class_of_blank hb] at hgraphic
  simp only [mark, hpair]

/-- **A blank character ends a lexeme as the end of the source does**, except that a comment goes on
up to a newline. -/
theorem front_append_blank (hb : isBlank b) (cs rest : List Char)
    (hcomment : c = '/' → cs.head? = some '/' → b = '\n') :
    front c (cs ++ b :: rest) = front c cs := by
  have hslash : b ≠ '/' := by
    rintro rfl
    exact absurd (class_of_blank hb) (by decide)
  have hhead : ((cs ++ b :: rest).head? = some '/') = (cs.head? = some '/') := by
    cases cs <;> simp [hslash]
  simp only [front, hhead, takeWhile_append_stop (continuesWord_of_blank hb),
    number_append_blank hb, mark_append_blank hb]
  split_ifs with hblank hstart
  · rfl
  · simp only [Bool.and_eq_true, decide_eq_true_eq] at hstart
    have hnewline := hcomment hstart.1 hstart.2
    rw [takeWhile_append_stop (by simp [hnewline])]
  all_goals rfl

/-- A lexeme is made of characters that are there. -/
lemma front_more_le (c : Char) (cs : List Char) : (front c cs).more ≤ cs.length := by
  have hchosen := front_chosen c cs
  generalize front c cs = chosen at hchosen
  cases hchosen with
  | lexeme _ hcs => simp [hcs]
  | nothing _ => simp
  | point hcs _ _ => simp [hcs]

/-- **Induction along the lexemes** of a source, up to a fault if there is one. -/
@[elab_as_elim]
theorem front_induction {motive : List Char → Prop} (nil : motive [])
    (gap : ∀ c text rest, front c (text ++ rest) = ⟨.gap, text.length⟩ → motive rest →
      motive (c :: (text ++ rest)))
    (token : ∀ c text rest kind, front c (text ++ rest) = ⟨.token kind, text.length⟩ →
      motive rest → motive (c :: (text ++ rest)))
    (fault : ∀ c cs n, front c cs = ⟨.fault, n⟩ → n ≤ cs.length → motive (c :: cs))
    (cs : List Char) : motive cs := by
  induction hn : cs.length using Nat.strong_induction_on generalizing cs with
  | _ n ih =>
    cases cs with
    | nil => exact nil
    | cons c cs =>
        subst hn
        have hle := front_more_le c cs
        obtain ⟨text, rest, rfl, hlength⟩ :
            ∃ text rest, cs = text ++ rest ∧ text.length = (front c cs).more :=
          ⟨_, _, (List.take_append_drop (front c cs).more cs).symm, by simpa using hle⟩
        have hrest : motive rest := ih rest.length (by simp) rest rfl
        cases hfront : front c (text ++ rest) with
        | mk shape more =>
            rw [hfront] at hle hlength
            subst hlength
            cases shape with
            | gap => exact gap c text rest hfront hrest
            | token kind => exact token c text rest kind hfront hrest
            | fault => exact fault c (text ++ rest) _ hfront hle

end Lexeme

/-! ## Reading up to a newline and behind it -/

/-- The place behind a lexeme and what follows it. -/
lemma Position.after_lexeme (p : Position) (c : Char) (text rest : List Char) :
    p.after (c :: (text ++ rest)) = (p.after (c :: text)).after rest := by
  rw [← List.cons_append, after, List.foldl_append]
  rfl

/-- **A reading can be cut at a newline.** -/
theorem lex_append_newline (p : Position) (cs ds : List Char) :
    (lex p (cs ++ '\n' :: ds)).fault
      = (lex p cs).fault.or (lex (p.after (cs ++ ['\n'])) ds).fault ∧
    ((lex p cs).fault = none → (lex p (cs ++ '\n' :: ds)).tokens
      = (lex p cs).tokens ++ (lex (p.after (cs ++ ['\n'])) ds).tokens) := by
  have hblank : isBlank '\n' := by decide
  have hfront (c : Char) (cs : List Char) :
      Lexeme.front c (cs ++ '\n' :: ds) = Lexeme.front c cs :=
    Lexeme.front_append_blank hblank cs ds fun _ _ => rfl
  -- lexeme by lexeme: each has the same rest behind it, in front of the newline
  induction cs using Lexeme.front_induction generalizing p with
  | nil =>
      have hgap : Lexeme.front '\n' ([] ++ ds) = ⟨.gap, 0⟩ := by
        simp [Lexeme.front, hblank]
      have hlex := lex_of_gap p hgap
      rw [List.nil_append] at hlex
      rw [List.nil_append, hlex, lex]
      simp [Lexed.prepend]
  | gap c text rest hgap ih =>
      have hgap' : Lexeme.front c (text ++ (rest ++ '\n' :: ds)) = ⟨.gap, text.length⟩ := by
        rw [← List.append_assoc, hfront, hgap]
      simp only [List.cons_append, List.append_assoc, Position.after_lexeme]
      rw [lex_of_gap p hgap', lex_of_gap p hgap]
      exact ih (p.after (c :: text))
  | token c text rest kind htoken ih =>
      have htoken' : Lexeme.front c (text ++ (rest ++ '\n' :: ds)) = ⟨.token kind, text.length⟩ := by
        rw [← List.append_assoc, hfront, htoken]
      obtain ⟨hfault, htokens⟩ := ih (p.after (c :: text))
      simp only [List.cons_append, List.append_assoc, Position.after_lexeme]
      rw [lex_of_token p htoken', lex_of_token p htoken]
      refine ⟨hfault, fun hnone => ?_⟩
      simp only [Lexed.prepend, List.append_assoc, htokens hnone]
  | fault c cs n hfault hle =>
      have hfault' : Lexeme.front c (cs ++ '\n' :: ds) = ⟨.fault, n⟩ := by
        rw [hfront, hfault]
      rw [List.cons_append, lex_of_fault p hfault', lex_of_fault p hfault,
        List.take_append_of_le_length hle]
      simp

/-! ## Reading from another place -/

/-- The same error at another place. -/
def ScanError.move (f : Position → Position) (e : ScanError) : ScanError :=
  { e with position := f e.position }

lemma lex_tokens_of_fault (p : Position) {c : Char} {cs : List Char} {n : Nat}
    (h : Lexeme.front c cs = ⟨.fault, n⟩) : (lex p (c :: cs)).tokens = [] := by
  rw [lex]
  simp [h]

section Move

variable {f : Position → Position} {g : Token → Token} {P : Position → Prop}
  (hnext : ∀ p c, P p → P (p.advance c) ∧ (f p).advance c = f (p.advance c))

include hnext

lemma Position.after_move {p : Position} (hp : P p) (cs : List Char) :
    P (p.after cs) ∧ (f p).after cs = f (p.after cs) := by
  induction cs generalizing p with
  | nil => exact ⟨hp, rfl⟩
  | cons c cs ih =>
      obtain ⟨hvalid, hadvance⟩ := hnext p c hp
      obtain ⟨hend, hafter⟩ := ih hvalid
      refine ⟨hend, ?_⟩
      calc (f p).after (c :: cs)
          = ((f p).advance c).after cs := rfl
        _ = f ((p.advance c).after cs) := by rw [hadvance, hafter]

/-- **Where a reading starts** shows in the places of its tokens and of its error: places can be moved
before reading or after it, if moving them goes along with taking a character. -/
theorem lex_move (htoken : ∀ kind text p, P p →
      (⟨kind, text, (f p).line, (f p).col⟩ : Token) = g ⟨kind, text, p.line, p.col⟩)
    {p : Position} (hp : P p) (cs : List Char) :
    (lex (f p) cs).fault = (lex p cs).fault.map (ScanError.move f) ∧
    (lex (f p) cs).tokens = (lex p cs).tokens.map g := by
  induction cs using Lexeme.front_induction generalizing p with
  | nil => simp [lex]
  | gap c text rest hgap ih =>
      obtain ⟨hvalid, hafter⟩ := Position.after_move hnext hp (c :: text)
      rw [lex_of_gap _ hgap, lex_of_gap _ hgap, hafter]
      exact ih hvalid
  | token c text rest kind hfront ih =>
      obtain ⟨hvalid, hafter⟩ := Position.after_move hnext hp (c :: text)
      obtain ⟨hfault, htokens⟩ := ih hvalid
      rw [lex_of_token _ hfront, lex_of_token _ hfront, hafter]
      refine ⟨hfault, ?_⟩
      simp only [Lexed.prepend]
      rw [htokens, htoken kind (.ofChars (c :: text)) p hp]
      simp
  | fault c cs k hfault hle =>
      have hafter := (Position.after_move hnext hp (c :: cs.take k).dropLast).2
      rw [lex_of_fault _ hfault, lex_of_fault _ hfault, lex_tokens_of_fault _ hfault,
        lex_tokens_of_fault _ hfault]
      simp only [ScanError.ofLexeme, hafter]
      simp [ScanError.move]

end Move

/-! ## Further down -/

/-- The same place, so many lines further down. -/
def Position.down (n : Nat) (p : Position) : Position :=
  ⟨p.line + n, p.col⟩

def Token.down (n : Nat) (t : Token) : Token :=
  { t with line := t.line + n }

def ScanError.down (n : Nat) (e : ScanError) : ScanError :=
  { e with position := e.position.down n }

theorem lex_down (n : Nat) (p : Position) (cs : List Char) :
    (lex (p.down n) cs).fault = (lex p cs).fault.map (ScanError.down n) ∧
    (lex (p.down n) cs).tokens = (lex p cs).tokens.map (Token.down n) := by
  refine lex_move (P := fun _ => True) ?_ ?_ trivial cs
  · intro p c _
    by_cases hc : c = '\n' <;> simp [Position.advance, Position.down, hc, Nat.add_right_comm]
  · intro kind text p _
    simp [Token.down, Position.down]

/-! ## The whole scan -/

/-- A newline starts a line further down by as many lines as there are newlines. -/
lemma Position.after_newline (cs : List Char) :
    start.after (cs ++ ['\n']) = start.down (1 + cs.count '\n') := by
  have hbehind := behind_after [] (cs ++ ['\n'])
  rw [List.nil_append] at hbehind
  calc start.after (cs ++ ['\n'])
      = behind (cs ++ ['\n']) := hbehind
    _ = start.down (1 + cs.count '\n') := by
        simp [behind, start, down, Nat.add_comm]

/-- **Scanning is compositional at newlines**, whatever the bytes on both sides are.  If the first
text fails, so does the whole, with the same error.  Otherwise the tokens are those of the first text
and then those of the second, or the error is that of the second text, further down by one line and
one for each newline of the first text; columns stay. -/
theorem scan_append_newline (a b : Text) :
    scan (a ++ "\n" ++ b) =
      match scan a, scan b with
      | .error e, _ => .error e
      | .ok ts, .ok us => .ok (ts ++ us.map (Token.down (1 + a.bytes.count Text.newline)))
      | .ok _, .error e => .error (e.down (1 + a.bytes.count Text.newline)) := by
  obtain ⟨hfault, htokens⟩ := lex_append_newline .start a.chars b.chars
  rw [Position.after_newline, Text.count_newline] at hfault htokens
  obtain ⟨hdown, hmoved⟩ := lex_down (1 + a.bytes.count Text.newline) .start b.chars
  rw [hdown] at hfault
  rw [hmoved] at htokens
  simp only [scan, Text.chars_append_newline]
  cases hfirst : (lex .start a.chars).fault with
  | some e => simp [hfault, hfirst]
  | none =>
      cases hsecond : (lex .start b.chars).fault with
      | none => simp [hfault, hfirst, hsecond, htokens hfirst]
      | some e => simp [hfault, hfirst, hsecond]

end Scriptlet
