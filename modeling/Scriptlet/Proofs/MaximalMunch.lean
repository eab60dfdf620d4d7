import Mathlib
import Scriptlet.Proofs.Decoding
import Scriptlet.Proofs.Scanned

/-!
# The scanner takes the longest lexeme

The scanner decides by the next character, or the next two, what to read and how far.  What it
reads is said here without it: `IsLexeme` lists the lexemes of the language, by the classes of
characters and the tables of words and marks, and `Lexes` takes the longest of them again and again,
from left to right, with the place of each counted from all that stands before it.

* `Lexeme.kindOfWord_iff` — the scanner finds the kind of a word in the tables (`KindOfWord`).
* `Longest.unique` — there is at most one longest lexeme at a place, and it is of one shape, so
  `Lexes` has at most one outcome (`Lexes.unique`).
* `Lexeme.front_chosen` — the scanner's choice is the longest lexeme; where it finds a fault, there
  is no lexeme, or there is a number with a point behind it that nothing can be made of.
* **`scan_longest_lexemes`** — for all bytes, the scanner's tokens or its error are the outcome of
  `Lexes` on the characters that the bytes are read as.
-/

namespace Scriptlet

/-! ## The lexemes -/

/-- **The kind of a word** is that of the table that lists it.  A word in none of them is a name. -/
inductive KindOfWord (word : List Char) : Kind → Prop where
  | type : String.ofList word ∈ Lexeme.typeWords → KindOfWord word .type
  | keyword : String.ofList word ∈ Lexeme.keywordWords → KindOfWord word .keyword
  | literal : String.ofList word ∈ Lexeme.literalWords → KindOfWord word .number
  | name : String.ofList word ∉ Lexeme.typeWords → String.ofList word ∉ Lexeme.keywordWords →
      String.ofList word ∉ Lexeme.literalWords → KindOfWord word .identifier

/-- **The lexemes of the language**: shape, text, and what follows the text. -/
inductive IsLexeme : Shape → List Char → List Char → Prop where
  | blank {c : Char} {rest : List Char} : isBlank c → IsLexeme .gap [c] rest
  /-- Two slashes and everything up to a newline or the end. -/
  | comment {body rest : List Char} : '\n' ∉ body → (∀ c ∈ rest.head?, c = '\n') →
      IsLexeme .gap ('/' :: '/' :: body) rest
  | word {c : Char} {more rest : List Char} {kind : Kind} : (isLetter c ∨ c = '_') →
      (∀ d ∈ more, isLetter d ∨ isDigit d ∨ d = '_') → KindOfWord (c :: more) kind →
      IsLexeme (.token kind) (c :: more) rest
  | whole {d : Char} {more rest : List Char} : isDigit d → (∀ e ∈ more, isDigit e) →
      IsLexeme (.token .number) (d :: more) rest
  | decimal {d : Char} {more fraction rest : List Char} : isDigit d → (∀ e ∈ more, isDigit e) →
      fraction ≠ [] → (∀ e ∈ fraction, isDigit e) →
      IsLexeme (.token .number) (d :: (more ++ '.' :: fraction)) rest
  | mark {text rest : List Char} {kind : Kind} : (String.ofList text, kind) ∈ Lexeme.marks →
      IsLexeme (.token kind) text rest

/-- No lexeme that starts at this place is longer. -/
structure Longest (shape : Shape) (text rest : List Char) : Prop where
  lexeme : IsLexeme shape text rest
  longest : ∀ {shape' : Shape} {text' rest' : List Char}, IsLexeme shape' text' rest' →
    text' ++ rest' = text ++ rest → text'.length ≤ text.length

/-- There is no lexeme at the front. -/
def NoLexeme (cs : List Char) : Prop :=
  ∀ {shape : Shape} {text rest : List Char}, text ++ rest = cs → ¬ IsLexeme shape text rest

/-- The place behind some characters: one more than the newlines among them, and one more than the
characters since the last newline. -/
def Position.behind (before : List Char) : Position :=
  ⟨1 + before.count '\n', 1 + (before.reverse.takeWhile (· ≠ '\n')).length⟩

/-- **Longest lexemes from left to right.**  Behind `before`, the characters are cut into longest
lexemes.  Those that are not gaps are the tokens, and at the first place without a lexeme there is
an error. -/
inductive Lexes : List Char → List Char → List Token → Option ScanError → Prop where
  | done {before : List Char} : Lexes before [] [] none
  | gap {before text rest : List Char} {ts : List Token} {e : Option ScanError} :
      Longest .gap text rest → Lexes (before ++ text) rest ts e →
      Lexes before (text ++ rest) ts e
  | token {before text rest : List Char} {kind : Kind} {ts : List Token} {e : Option ScanError} :
      Longest (.token kind) text rest → Lexes (before ++ text) rest ts e →
      Lexes before (text ++ rest) (⟨kind, .ofChars text, (Position.behind before).line,
        (Position.behind before).col⟩ :: ts) e
  | fault {before rest : List Char} {c : Char} : NoLexeme (c :: rest) →
      Lexes before (c :: rest) [] (some ⟨.behind before, c⟩)

/-! ## What a lexeme starts with -/

namespace Lexeme

lemma marks_graphic : ∀ m ∈ marks, ∀ c ∈ m.1.toList, CharClass.of c = .graphic := by
  have hall : ∀ m ∈ marks, m.1.toList.all (CharClass.of · = .graphic) := by decide
  intro m hm c hc
  simpa using List.all_eq_true.mp (hall m hm) c hc

lemma marks_short : ∀ m ∈ marks, m.1.toList.length = 1 ∨ m.1.toList.length = 2 := by
  decide

lemma marks_lookup : ∀ m ∈ marks, marks.lookup m.1 = some m.2 := by
  decide

variable {c : Char} {t rest : List Char} {kind : Kind} {shape : Shape}

lemma class_of_mark (h : (String.ofList (c :: t), kind) ∈ marks) : CharClass.of c = .graphic :=
  marks_graphic _ h c (by simp)

lemma length_of_mark (h : (String.ofList (c :: t), kind) ∈ marks) : t = [] ∨ ∃ d, t = [d] := by
  have hlength := marks_short _ h
  simp only [String.toList_ofList, List.length_cons] at hlength
  rcases hlength with h | h
  · exact .inl (List.eq_nil_of_length_eq_zero (by omega))
  · exact .inr (List.length_eq_one_iff.mp (by omega))

lemma lookup_of_mark {text : List Char} (h : (String.ofList text, kind) ∈ marks) :
    marks.lookup (String.ofList text) = some kind :=
  marks_lookup _ h

/-- No mark is written like the start of a comment. -/
lemma slashes_not_mark {body : List Char} :
    (String.ofList ('/' :: '/' :: body), kind) ∉ marks := by
  intro h
  rcases length_of_mark h with hbody | ⟨d, hbody⟩
  · simp at hbody
  · obtain ⟨rfl, rfl⟩ := List.cons.inj hbody
    have hnone : marks.lookup (String.ofList ['/', '/']) = none := by decide
    simp [lookup_of_mark h] at hnone

lemma startsWord_iff : startsWord c ↔ isLetter c ∨ c = '_' := by
  simp [startsWord]

lemma continuesWord_iff : continuesWord c ↔ isLetter c ∨ isDigit c ∨ c = '_' := by
  simp [continuesWord, or_assoc]

/-- **The scanner finds the kind of a word in the tables**, which have no word in common. -/
lemma kindOfWord_iff {word : List Char} : KindOfWord word kind ↔ wordKind word = kind := by
  have hkeywords : ∀ w ∈ keywordWords, w ∉ typeWords := by decide
  have hliterals : ∀ w ∈ literalWords, w ∉ typeWords ∧ w ∉ keywordWords := by decide
  unfold wordKind
  constructor
  · intro h
    cases h with
    | type htype => simp [htype]
    | keyword hkeyword => simp [hkeywords _ hkeyword, hkeyword]
    | literal hliteral => simp [hliterals _ hliteral, hliteral]
    | name htype hkeyword hliteral => simp [htype, hkeyword, hliteral]
  · rintro rfl
    dsimp only
    split_ifs with htype hkeyword hliteral
    · exact .type htype
    · exact .keyword hkeyword
    · exact .literal hliteral
    · exact .name htype hkeyword hliteral

lemma class_of_startsWord (h : startsWord c) :
    CharClass.of c = .letter ∨ CharClass.of c = .connector := by
  simp only [startsWord, isLetter, Bool.or_eq_true, decide_eq_true_eq] at h
  rcases h with h | rfl
  · exact .inl h
  · exact .inr (by decide)

end Lexeme

namespace IsLexeme

open Lexeme

variable {shape : Shape} {c : Char} {t text rest : List Char}

lemma ne_nil (h : IsLexeme shape text rest) : text ≠ [] := by
  cases h with
  | mark h =>
      rintro rfl
      exact absurd (marks_short _ h) (by simp)
  | _ => simp

/-- A word as the scanner takes it. -/
lemma of_startsWord (hc : startsWord c) (ht : ∀ d ∈ t, continuesWord d) :
    IsLexeme (.token (wordKind (c :: t))) (c :: t) rest :=
  .word (startsWord_iff.mp hc) (fun d hd => continuesWord_iff.mp (ht d hd)) (kindOfWord_iff.mpr rfl)

/-- Classes of characters do not overlap, so the first character tells the family of a lexeme: a
blank character, -/
lemma eq_of_blank (h : IsLexeme shape (c :: t) rest) (hc : isBlank c) : shape = .gap ∧ t = [] := by
  have hclass : CharClass.of c = .blank := by simpa [isBlank] using hc
  cases h with
  | blank _ => exact ⟨rfl, rfl⟩
  | comment => exact absurd hclass (by decide)
  | word hword =>
      rcases class_of_startsWord (startsWord_iff.mpr hword) with h | h <;> simp [h] at hclass
  | whole hdigit => simp [isDigit, hclass] at hdigit
  | decimal hdigit => simp [isDigit, hclass] at hdigit
  | mark hmark => simp [class_of_mark hmark] at hclass

/-- a word, -/
lemma eq_of_startsWord (h : IsLexeme shape (c :: t) rest) (hc : startsWord c) :
    shape = .token (wordKind (c :: t)) ∧ ∀ d ∈ t, continuesWord d := by
  have hclass := class_of_startsWord hc
  cases h with
  | blank hblank => simp [isBlank] at hblank; simp [hblank] at hclass
  | comment => exact absurd hclass (by decide)
  | word _ hmore hkind =>
      rw [kindOfWord_iff.mp hkind]
      exact ⟨rfl, fun d hd => continuesWord_iff.mpr (hmore d hd)⟩
  | whole hdigit => simp [isDigit] at hdigit; simp [hdigit] at hclass
  | decimal hdigit => simp [isDigit] at hdigit; simp [hdigit] at hclass
  | mark hmark => simp [class_of_mark hmark] at hclass

/-- a number, -/
lemma eq_of_digit (h : IsLexeme shape (c :: t) rest) (hc : isDigit c) :
    shape = .token .number ∧ ((∀ d ∈ t, isDigit d) ∨ ∃ more fraction, t = more ++ '.' :: fraction ∧
      (∀ d ∈ more, isDigit d) ∧ fraction ≠ [] ∧ ∀ d ∈ fraction, isDigit d) := by
  have hclass : CharClass.of c = .digit := by simpa [isDigit] using hc
  cases h with
  | blank hblank => simp [isBlank, hclass] at hblank
  | comment => exact absurd hclass (by decide)
  | word hword =>
      rcases class_of_startsWord (startsWord_iff.mpr hword) with h | h <;> simp [h] at hclass
  | whole _ hmore => exact ⟨rfl, .inl hmore⟩
  | decimal _ hmore hne hfraction => exact ⟨rfl, .inr ⟨_, _, rfl, hmore, hne, hfraction⟩⟩
  | mark hmark => simp [class_of_mark hmark] at hclass

/-- or else a comment or a mark. -/
lemma eq_of_other (h : IsLexeme shape (c :: t) rest) (hblank : ¬ isBlank c) (hword : ¬ startsWord c)
    (hdigit : ¬ isDigit c) :
    (shape = .gap ∧ c = '/' ∧ ∃ body, t = '/' :: body ∧ '\n' ∉ body) ∨
      ∃ kind, shape = .token kind ∧ (String.ofList (c :: t), kind) ∈ marks := by
  cases h with
  | blank h => exact absurd h hblank
  | comment hbody => exact .inl ⟨rfl, rfl, _, rfl, hbody⟩
  | word h => exact absurd (startsWord_iff.mpr h) hword
  | whole h => exact absurd h hdigit
  | decimal h => exact absurd h hdigit
  | mark h => exact .inr ⟨_, rfl, h⟩

/-- A text is a lexeme of one shape. -/
lemma shape_unique {shape' : Shape} {rest' : List Char} (h : IsLexeme shape text rest)
    (h' : IsLexeme shape' text rest') : shape = shape' := by
  obtain ⟨c, t, rfl⟩ := List.exists_cons_of_ne_nil h.ne_nil
  by_cases hblank : isBlank c
  · rw [(h.eq_of_blank hblank).1, (h'.eq_of_blank hblank).1]
  by_cases hword : startsWord c
  · rw [(h.eq_of_startsWord hword).1, (h'.eq_of_startsWord hword).1]
  by_cases hdigit : isDigit c
  · rw [(h.eq_of_digit hdigit).1, (h'.eq_of_digit hdigit).1]
  rcases h.eq_of_other hblank hword hdigit with ⟨hs, rfl, body, rfl, -⟩ | ⟨kind, hs, hmark⟩ <;>
    rcases h'.eq_of_other hblank hword hdigit with ⟨hs', hc, body', ht, -⟩ | ⟨kind', hs', hmark'⟩
  · rw [hs, hs']
  · exact absurd hmark' slashes_not_mark
  · subst hc ht
    exact absurd hmark slashes_not_mark
  · have hkind := (lookup_of_mark hmark).symm.trans (lookup_of_mark hmark')
    rw [hs, hs', Option.some.inj hkind]

end IsLexeme

/-- There is at most one longest lexeme at a place. -/
lemma Longest.unique {shape shape' : Shape} {text text' rest rest' : List Char}
    (h : Longest shape text rest) (h' : Longest shape' text' rest')
    (heq : text ++ rest = text' ++ rest') : shape = shape' ∧ text = text' ∧ rest = rest' := by
  have hlength : text.length = text'.length :=
    Nat.le_antisymm (h'.longest h.lexeme heq) (h.longest h'.lexeme heq.symm)
  obtain ⟨rfl, rfl⟩ := List.append_inj heq hlength
  exact ⟨h.lexeme.shape_unique h'.lexeme, rfl, rfl⟩

lemma Longest.not_noLexeme {shape : Shape} {text rest : List Char} (h : Longest shape text rest) :
    ¬ NoLexeme (text ++ rest) :=
  fun hnone => hnone rfl h.lexeme

/-- **There is at most one way to take longest lexemes.** -/
theorem Lexes.unique {before cs : List Char} {ts ts' : List Token} {e e' : Option ScanError}
    (h : Lexes before cs ts e) (h' : Lexes before cs ts' e') : ts = ts' ∧ e = e' := by
  induction h generalizing ts' e' with
  | done =>
      generalize hcs : [] = cs at h'
      cases h' with
      | done => exact ⟨rfl, rfl⟩
      | gap hlong _ => exact absurd hcs (by simp [hlong.lexeme.ne_nil])
      | token hlong _ => exact absurd hcs (by simp [hlong.lexeme.ne_nil])
      | fault _ => simp at hcs
  | @gap before text rest ts e hlong _ ih =>
      generalize hcs : text ++ rest = cs at h'
      cases h' with
      | done => exact absurd hcs (by simp [hlong.lexeme.ne_nil])
      | gap hlong' h' =>
          obtain ⟨-, rfl, rfl⟩ := hlong.unique hlong' hcs
          exact ih h'
      | token hlong' _ => exact absurd (hlong.unique hlong' hcs).1 (by simp)
      | fault hnone => exact absurd (hcs ▸ hnone) hlong.not_noLexeme
  | @token before text rest kind ts e hlong _ ih =>
      generalize hcs : text ++ rest = cs at h'
      cases h' with
      | done => exact absurd hcs (by simp [hlong.lexeme.ne_nil])
      | gap hlong' _ => exact absurd (hlong.unique hlong' hcs).1 (by simp)
      | token hlong' h' =>
          obtain ⟨hshape, rfl, rfl⟩ := hlong.unique hlong' hcs
          obtain ⟨rfl, rfl⟩ := ih h'
          rw [Shape.token.inj hshape]
          exact ⟨rfl, rfl⟩
      | fault hnone => exact absurd (hcs ▸ hnone) hlong.not_noLexeme
  | @fault before rest c hnone =>
      generalize hcs : c :: rest = cs at h'
      cases h' with
      | done => simp at hcs
      | gap hlong _ => exact absurd (hcs ▸ hnone) hlong.not_noLexeme
      | token hlong _ => exact absurd (hcs ▸ hnone) hlong.not_noLexeme
      | fault _ =>
          obtain ⟨rfl, rfl⟩ := List.cons.inj hcs
          exact ⟨rfl, rfl⟩

/-! ## Positions -/

lemma Position.behind_advance (before : List Char) (c : Char) :
    (behind before).advance c = behind (before ++ [c]) := by
  by_cases hc : c = '\n'
  · simp [behind, advance, hc, Nat.add_assoc]
  · simp [behind, advance, hc, Nat.add_assoc, List.count_cons_of_ne]

lemma Position.behind_after (before text : List Char) :
    (behind before).after text = behind (before ++ text) := by
  induction text generalizing before with
  | nil => simp [after]
  | cons c text ih =>
      calc (behind before).after (c :: text)
          = ((behind before).advance c).after text := rfl
        _ = behind (before ++ (c :: text)) := by rw [behind_advance, ih]; simp

/-! ## The longest lexeme of each family -/

section TakeWhile

variable {p : Char → Bool} {cs t rest : List Char}

lemma drop_length_takeWhile (p : Char → Bool) (cs : List Char) :
    cs.drop (cs.takeWhile p).length = cs.dropWhile p := by
  have h : (cs.takeWhile p ++ cs.dropWhile p).drop (cs.takeWhile p).length = cs.dropWhile p :=
    List.drop_left
  rwa [List.takeWhile_append_dropWhile] at h

/-- Characters of a kind at the front are no more than there are. -/
lemma length_le_takeWhile (ht : ∀ d ∈ t, p d) (hcs : t ++ rest = cs) :
    t.length ≤ (cs.takeWhile p).length := by
  rw [← hcs, List.takeWhile_append_of_pos ht, List.length_append]
  omega

lemma dropWhile_head (p : Char → Bool) (cs : List Char) :
    ∀ c ∈ (cs.dropWhile p).head?, p c = false := by
  intro c hc
  have h := List.head?_dropWhile_not p cs
  rw [Option.mem_def.mp hc] at h
  simpa using h

end TakeWhile

namespace Longest

open Lexeme

variable {shape : Shape} {c : Char} {cs t rest after : List Char}

/-- Lexemes at one place start with one character. -/
lemma of_cons (h : IsLexeme shape (c :: t) rest)
    (hlongest : ∀ {shape' : Shape} {t' rest' : List Char}, IsLexeme shape' (c :: t') rest' →
      t' ++ rest' = t ++ rest → t'.length ≤ t.length) : Longest shape (c :: t) rest where
  lexeme := h
  longest := by
    intro shape' text' rest' h' heq
    obtain ⟨c', t', rfl⟩ := List.exists_cons_of_ne_nil h'.ne_nil
    obtain ⟨rfl, htail⟩ := List.cons.inj heq
    exact Nat.succ_le_succ (hlongest h' htail)

lemma blank (hc : isBlank c) (cs : List Char) : Longest .gap [c] cs := by
  refine of_cons (.blank hc) fun h' _ => ?_
  rw [(h'.eq_of_blank hc).2]

lemma comment (cs : List Char) :
    Longest .gap ('/' :: '/' :: cs.takeWhile (· ≠ '\n')) (cs.dropWhile (· ≠ '\n')) := by
  refine of_cons (.comment ?_ ?_) fun h' heq => ?_
  · intro hmem
    simpa using List.mem_takeWhile_imp hmem
  · intro c hc
    simpa using dropWhile_head _ cs c hc
  · rcases h'.eq_of_other (by decide) (by decide) (by decide) with
      ⟨-, -, body, rfl, hbody⟩ | ⟨kind, -, hmark⟩
    · -- another comment stops at a newline as well
      simp only [List.cons_append, List.cons.injEq, true_and,
        List.takeWhile_append_dropWhile] at heq
      have hall : ∀ d ∈ body, decide (d ≠ '\n') = true := by
        intro d hd
        exact decide_eq_true (ne_of_mem_of_not_mem hd hbody)
      exact Nat.succ_le_succ (length_le_takeWhile hall heq)
    · rcases length_of_mark hmark with rfl | ⟨d, rfl⟩ <;> simp

lemma word (hc : startsWord c) (cs : List Char) :
    Longest (.token (wordKind (c :: cs.takeWhile continuesWord)))
      (c :: cs.takeWhile continuesWord) (cs.dropWhile continuesWord) := by
  refine of_cons (.of_startsWord hc fun d hd => List.mem_takeWhile_imp hd) fun h' heq => ?_
  rw [List.takeWhile_append_dropWhile] at heq
  exact length_le_takeWhile (h'.eq_of_startsWord hc).2 heq

/-- In a number with a point, the point stands behind the first digits. -/
lemma digits_point {more : List Char} (hmore : ∀ d ∈ more, isDigit d)
    (hcs : more ++ '.' :: rest = cs) :
    cs.takeWhile isDigit = more ∧ cs.dropWhile isDigit = '.' :: rest := by
  have hpoint : isDigit '.' = false := by decide
  rw [← hcs, List.takeWhile_append_of_pos hmore, List.dropWhile_append_of_pos hmore]
  simp [hpoint]

/-- A number without a fraction, if none follows its digits. -/
lemma whole (hc : isDigit c) {cs : List Char}
    (hnone : ∀ after, cs.dropWhile isDigit = '.' :: after → after.takeWhile isDigit = []) :
    Longest (.token .number) (c :: cs.takeWhile isDigit) (cs.dropWhile isDigit) := by
  refine of_cons (.whole hc fun d hd => List.mem_takeWhile_imp hd) ?_
  intro shape' t' rest' h' heq
  rw [List.takeWhile_append_dropWhile] at heq
  rcases (h'.eq_of_digit hc).2 with hall | ⟨more, fraction, rfl, hmore, hne, hfraction⟩
  · exact length_le_takeWhile hall heq
  · rw [List.append_assoc, List.cons_append] at heq
    have hempty := hnone _ (digits_point hmore heq).2
    have hle := length_le_takeWhile hfraction (rfl : fraction ++ rest' = _)
    rw [hempty, List.length_nil] at hle
    exact absurd (List.eq_nil_of_length_eq_zero (by omega)) hne

lemma decimal (hc : isDigit c) {cs after : List Char} (hcs : cs.dropWhile isDigit = '.' :: after)
    (hne : after.takeWhile isDigit ≠ []) :
    Longest (.token .number) (c :: (cs.takeWhile isDigit ++ '.' :: after.takeWhile isDigit))
      (after.dropWhile isDigit) := by
  refine of_cons (.decimal hc (fun d hd => List.mem_takeWhile_imp hd) hne
    fun d hd => List.mem_takeWhile_imp hd) ?_
  intro shape' t' rest' h' heq
  rw [List.append_assoc, List.cons_append, List.takeWhile_append_dropWhile, ← hcs,
    List.takeWhile_append_dropWhile] at heq
  rw [List.length_append, List.length_cons]
  rcases (h'.eq_of_digit hc).2 with hall | ⟨more, fraction, rfl, hmore, -, hfraction⟩
  · have hle := length_le_takeWhile hall heq
    omega
  · rw [List.append_assoc, List.cons_append] at heq
    obtain ⟨hmore', hpoint⟩ := digits_point hmore heq
    rw [hcs] at hpoint
    have hle := length_le_takeWhile hfraction (List.cons.inj hpoint).2.symm
    rw [← hmore', List.length_append, List.length_cons]
    omega

lemma noLexeme_point (after : List Char) : NoLexeme ('.' :: after) := by
  intro shape text rest hcs h
  obtain ⟨c, t, rfl⟩ := List.exists_cons_of_ne_nil h.ne_nil
  obtain ⟨rfl, -⟩ := List.cons.inj hcs
  rcases h.eq_of_other (by decide) (by decide) (by decide) with ⟨-, hslash, -⟩ | ⟨kind, -, hmark⟩
  · exact absurd hslash (by decide)
  · have hfirst : ∀ m ∈ marks, m.1.toList.head? ≠ some '.' := by decide
    exact hfirst _ hmark (by simp)

end Longest

/-! ## What the scanner chooses -/

namespace Lexeme

variable {c d : Char} {cs : List Char} {kind : Kind}

lemma lookup_eq_none_iff {text : List Char} :
    marks.lookup (String.ofList text) = none ↔ ∀ kind, (String.ofList text, kind) ∉ marks := by
  constructor
  · intro h kind hmark
    rw [lookup_of_mark hmark] at h
    simp at h
  · intro h
    refine Option.eq_none_iff_forall_ne_some.mpr fun kind hkind => ?_
    exact h kind (mem_marks hkind)

/-- **The three outcomes of looking for a mark**: one of two characters, or one of a single
character, or none at all. -/
lemma mark_cases (c : Char) (cs : List Char) :
    (∃ d rest kind, cs = d :: rest ∧ (String.ofList [c, d], kind) ∈ marks ∧
      mark c cs = ⟨.token kind, 1⟩) ∨
    (∀ d rest kind, cs = d :: rest → (String.ofList [c, d], kind) ∉ marks) ∧
      ((∃ kind, (String.ofList [c], kind) ∈ marks ∧ mark c cs = ⟨.token kind, 0⟩) ∨
        (∀ kind, (String.ofList [c], kind) ∉ marks) ∧ mark c cs = ⟨.fault, 0⟩) := by
  cases hpair : pairKind? c cs with
  | some kind =>
      cases cs with
      | nil => simp [pairKind?] at hpair
      | cons d rest => exact .inl ⟨d, rest, kind, rfl, mem_marks hpair, by simp only [mark, hpair]⟩
  | none =>
      refine .inr ⟨?_, ?_⟩
      · rintro d rest kind rfl
        exact lookup_eq_none_iff.mp hpair kind
      · cases hsingle : marks.lookup (String.ofList [c]) with
        | some kind => exact .inl ⟨kind, mem_marks hsingle, by simp only [mark, hpair, hsingle]⟩
        | none =>
            exact .inr ⟨lookup_eq_none_iff.mp hsingle, by simp only [mark, hpair, hsingle]⟩

/-- What the scanner may choose at a place: the longest lexeme, or a fault if there is no lexeme, or
a fault at a point behind the longest lexeme if nothing can be made of the point. -/
inductive Chosen (c : Char) (cs : List Char) : Lexeme → Prop where
  | lexeme {shape : Shape} {text rest : List Char} : Longest shape (c :: text) rest →
      cs = text ++ rest → Chosen c cs ⟨shape, text.length⟩
  | nothing : NoLexeme (c :: cs) → Chosen c cs ⟨.fault, 0⟩
  | point {digits after : List Char} : cs = digits ++ '.' :: after →
      Longest (.token .number) (c :: digits) ('.' :: after) → NoLexeme ('.' :: after) →
      Chosen c cs ⟨.fault, digits.length + 1⟩

section Marks

variable (hblank : ¬ isBlank c) (hword : ¬ startsWord c) (hdigit : ¬ isDigit c)
  (hcomment : ¬ (c = '/' ∧ cs.head? = some '/'))

include hblank hword hdigit hcomment

/-- Where a comment does not start, other lexemes than words, numbers and blanks are marks. -/
lemma mark_of_lexeme {shape : Shape} {t rest : List Char} (h : IsLexeme shape (c :: t) rest)
    (hcs : t ++ rest = cs) : ∃ kind, (String.ofList (c :: t), kind) ∈ marks := by
  rcases h.eq_of_other hblank hword hdigit with ⟨-, rfl, body, rfl, -⟩ | ⟨kind, -, hmark⟩
  · exact absurd ⟨rfl, by simp [← hcs]⟩ hcomment
  · exact ⟨kind, hmark⟩

lemma mark_chosen : Chosen c cs (mark c cs) := by
  rcases mark_cases c cs with ⟨d, rest, kind, rfl, hpair, hchoice⟩ | ⟨hpairs, hsingle⟩
  · rw [hchoice]
    have hlong : Longest (.token kind) (c :: [d]) rest := by
      refine .of_cons (.mark hpair) fun h' heq => ?_
      obtain ⟨kind', hmark⟩ := mark_of_lexeme hblank hword hdigit hcomment h' heq
      rcases length_of_mark hmark with rfl | ⟨e, rfl⟩ <;> simp
    exact .lexeme hlong rfl
  · -- no lexeme has a second character
    have hshort {shape : Shape} {t rest : List Char} (h : IsLexeme shape (c :: t) rest)
        (hcs : t ++ rest = cs) : t = [] ∧ ∃ kind, (String.ofList [c], kind) ∈ marks := by
      obtain ⟨kind, hmark⟩ := mark_of_lexeme hblank hword hdigit hcomment h hcs
      rcases length_of_mark hmark with rfl | ⟨d, rfl⟩
      · exact ⟨rfl, kind, hmark⟩
      · exact absurd hmark (hpairs d rest kind hcs.symm)
    rcases hsingle with ⟨kind, hsingle, hchoice⟩ | ⟨hnone, hchoice⟩
    · rw [hchoice]
      have hlong : Longest (.token kind) (c :: []) cs := by
        refine .of_cons (.mark hsingle) fun h' heq => ?_
        simp [(hshort h' heq).1]
      exact .lexeme hlong rfl
    · rw [hchoice]
      refine .nothing fun {shape text rest} hcs h => ?_
      obtain ⟨c', t, rfl⟩ := List.exists_cons_of_ne_nil h.ne_nil
      rw [List.cons_append, List.cons.injEq] at hcs
      obtain ⟨rfl, hcs⟩ := hcs
      obtain ⟨kind, hmark⟩ := (hshort h hcs).2
      exact hnone kind hmark

end Marks

lemma number_chosen (hc : isDigit c) (cs : List Char) : Chosen c cs (number cs) := by
  unfold number
  split
  · next after hpoint =>
      have hcs : cs = cs.takeWhile isDigit ++ '.' :: after := by
        rw [← hpoint, List.takeWhile_append_dropWhile]
      dsimp only
      split_ifs with hzero
      · have hempty : after.takeWhile isDigit = [] := List.eq_nil_of_length_eq_zero hzero
        have hwhole : Longest (.token .number) (c :: cs.takeWhile isDigit) (cs.dropWhile isDigit) := by
          refine .whole hc fun after' hpoint' => ?_
          rw [hpoint] at hpoint'
          rw [← (List.cons.inj hpoint').2, hempty]
        rw [hpoint] at hwhole
        exact .point hcs hwhole (Longest.noLexeme_point after)
      · have hne : after.takeWhile isDigit ≠ [] := fun h => hzero (by rw [h]; rfl)
        have hchosen := Chosen.lexeme (Longest.decimal hc hpoint hne) rfl
        rw [List.append_assoc, List.cons_append, List.takeWhile_append_dropWhile, ← hcs] at hchosen
        simpa [Nat.add_assoc, Nat.add_comm 1] using hchosen
  · next hpoint =>
      refine .lexeme (.whole hc fun after h => absurd h (hpoint after)) ?_
      exact List.takeWhile_append_dropWhile.symm

/-- **What the scanner chooses**, at every place. -/
theorem front_chosen (c : Char) (cs : List Char) : Chosen c cs (front c cs) := by
  unfold front
  split_ifs with hblank hcomment hword hdigit
  · exact .lexeme (.blank hblank cs) rfl
  · simp only [Bool.and_eq_true, decide_eq_true_eq] at hcomment
    obtain ⟨rfl, hslash⟩ := hcomment
    obtain ⟨body, rfl⟩ := List.head?_eq_some_iff.mp hslash
    exact .lexeme (.comment body) (by simp)
  · exact .lexeme (.word hword cs) List.takeWhile_append_dropWhile.symm
  · exact number_chosen hdigit cs
  · exact mark_chosen hblank hword hdigit (by simpa using hcomment)

end Lexeme

/-! ## The whole scan -/

section Lex

variable {p : Position} {c : Char} {cs text rest : List Char} {kind : Kind}

lemma lex_of_gap (p : Position)
    (h : Lexeme.front c (text ++ rest) = ⟨.gap, text.length⟩) :
    lex p (c :: (text ++ rest))
      = (lex (p.after (c :: text)) rest).prepend [] (text.length + 1) := by
  rw [lex]
  simp [h]

lemma lex_of_token (p : Position)
    (h : Lexeme.front c (text ++ rest) = ⟨.token kind, text.length⟩) :
    lex p (c :: (text ++ rest)) = (lex (p.after (c :: text)) rest).prepend
      [⟨kind, .ofChars (c :: text), p.line, p.col⟩] (text.length + 1) := by
  rw [lex]
  simp [h]

lemma lex_of_fault (p : Position) {n : Nat} (h : Lexeme.front c cs = ⟨.fault, n⟩) :
    (lex p (c :: cs)).fault = some (.ofLexeme p (c :: cs.take n) c) := by
  rw [lex]
  simp [h]

end Lex

lemma IsLexeme.shape_ne_fault {shape : Shape} {text rest : List Char}
    (h : IsLexeme shape text rest) : shape ≠ .fault := by
  cases h <;> simp

/-- **The scanner takes longest lexemes**, from any place on. -/
theorem lex_lexes (before cs : List Char) :
    ∃ ts, Lexes before cs ts (lex (.behind before) cs).fault ∧
      ((lex (.behind before) cs).fault = none → ts = (lex (.behind before) cs).tokens) := by
  -- what is left gets shorter with every lexeme, and `before` longer
  induction hn : cs.length using Nat.strong_induction_on generalizing before cs with
  | _ n ih =>
    cases cs with
    | nil => exact ⟨[], by rw [lex]; exact .done, fun _ => by rw [lex]⟩
    | cons c cs =>
        have hchosen := Lexeme.front_chosen c cs
        generalize hfront : Lexeme.front c cs = chosen at hchosen
        cases hchosen with
        | @lexeme shape text rest hlong hcs =>
            subst hcs hn
            have hshorter : rest.length < (c :: (text ++ rest)).length := by
              simp only [List.length_cons, List.length_append]
              omega
            obtain ⟨ts, hrest, htokens⟩ := ih _ hshorter (before ++ (c :: text)) rest rfl
            rw [← Position.behind_after] at hrest htokens
            cases shape with
            | gap =>
                rw [lex_of_gap _ hfront]
                refine ⟨ts, .gap hlong ?_, fun hnone => ?_⟩
                · exact hrest
                · simpa [Lexed.prepend] using htokens hnone
            | token kind =>
                rw [lex_of_token _ hfront]
                refine ⟨_, .token hlong hrest, fun hnone => ?_⟩
                simpa [Lexed.prepend] using htokens hnone
            | fault => exact absurd rfl hlong.lexeme.shape_ne_fault
        | nothing hnone =>
            rw [lex_of_fault _ hfront]
            exact ⟨[], .fault hnone, by simp⟩
        | @point digits after hcs hlong hnone =>
            subst hcs
            rw [lex_of_fault _ hfront]
            have herror : ScanError.ofLexeme (.behind before)
                (c :: (digits ++ '.' :: after).take (digits.length + 1)) c
                = ⟨.behind (before ++ (c :: digits)), '.'⟩ := by
              have htake : (digits ++ '.' :: after).take (digits.length + 1) = digits ++ ['.'] := by
                simp [List.take_append]
              rw [htake, ← Position.behind_after, ← List.cons_append, ScanError.ofLexeme,
                List.dropLast_concat, List.getLast?_concat, Option.getD_some]
            rw [herror]
            exact ⟨_, .token hlong (.fault hnone), by simp⟩

lemma exists_lexes_scan (source : Text) :
    (∃ ts, scan source = .ok ts ∧ Lexes [] source.chars ts none) ∨
      ∃ ts e, scan source = .error e ∧ Lexes [] source.chars ts (some e) := by
  obtain ⟨ts, hlexes, htokens⟩ := lex_lexes [] source.chars
  have hstart : Position.behind [] = .start := rfl
  rw [hstart] at hlexes htokens
  cases hfault : (lex .start source.chars).fault with
  | none =>
      rw [hfault] at hlexes
      exact .inl ⟨ts, by simp only [scan, hfault, htokens hfault], hlexes⟩
  | some e =>
      rw [hfault] at hlexes
      exact .inr ⟨ts, e, by simp only [scan, hfault], hlexes⟩

lemma scan_eq_ok_iff {source : Text} {ts : List Token} :
    scan source = .ok ts ↔ Lexes [] source.chars ts none := by
  rcases exists_lexes_scan source with ⟨ts', hscan, hlexes⟩ | ⟨ts', e, hscan, hlexes⟩
  · rw [hscan, Except.ok.injEq]
    exact ⟨fun heq => heq ▸ hlexes, fun h => (hlexes.unique h).1⟩
  · simp only [hscan, reduceCtorEq, false_iff]
    intro h
    simpa using (hlexes.unique h).2

lemma scan_eq_error_iff {source : Text} {e : ScanError} :
    scan source = .error e ↔ ∃ ts, Lexes [] source.chars ts (some e) := by
  rcases exists_lexes_scan source with ⟨ts, hscan, hlexes⟩ | ⟨ts, e', hscan, hlexes⟩
  · simp only [hscan, reduceCtorEq, false_iff]
    rintro ⟨ts', h⟩
    simpa using (hlexes.unique h).2
  · rw [hscan, Except.error.injEq]
    constructor
    · rintro rfl
      exact ⟨ts, hlexes⟩
    · rintro ⟨ts', h⟩
      exact Option.some.inj (hlexes.unique h).2

/-- **The scanner is the leftmost-longest lexer of the language, positions included.**  Whatever the
bytes, they are read as characters, and the scanner's tokens are the longest lexemes of these from
left to right, each with its text, its kind and its place.  It fails exactly if at some place there
is no lexeme, and its error names the first such place and the character there. -/
theorem scan_longest_lexemes (source : Text) :
    ∃ gs, (∀ gs', Decodes source.bytes gs' ↔ gs' = gs) ∧
      (∀ ts, scan source = .ok ts ↔ Lexes [] (gs.map Glyph.toChar) ts none) ∧
      ∀ e, scan source = .error e ↔ ∃ ts, Lexes [] (gs.map Glyph.toChar) ts (some e) := by
  refine ⟨source.glyphs, fun gs' => ?_, fun _ => scan_eq_ok_iff, fun _ => scan_eq_error_iff⟩
  rw [← Text.readGlyphs_eq_iff]
  exact eq_comm

/-- A name that starts like a keyword, words of each table, and a comment with a malformed byte.  A
second point is no part of a number, and nothing else starts with it. -/
theorem scan_longest_lexemes_words :
    let source : Text := ⟨("int iffy\nif true<=4.5 //" : Text).bytes ++ [0xff]⟩
    let ts : List Token := [⟨.type, "int", 1, 1⟩, ⟨.identifier, "iffy", 1, 5⟩,
      ⟨.keyword, "if", 2, 1⟩, ⟨.number, "true", 2, 4⟩, ⟨.binaryOperator, "<=", 2, 8⟩,
      ⟨.number, "4.5", 2, 10⟩]
    (∃ gs, Decodes source.bytes gs ∧ Lexes [] (gs.map Glyph.toChar) ts none) ∧
      ∃ gs, Decodes ("x=4.5.6" : Text).bytes gs ∧
        ∃ ts', Lexes [] (gs.map Glyph.toChar) ts' (some ⟨⟨1, 6⟩, '.'⟩) := by
  intro source ts
  constructor
  · obtain ⟨gs, hdecodes, hok, -⟩ := scan_longest_lexemes source
    exact ⟨gs, (hdecodes gs).mpr rfl, (hok ts).mp (by decide +kernel)⟩
  · obtain ⟨gs, hdecodes, -, herror⟩ := scan_longest_lexemes "x=4.5.6"
    exact ⟨gs, (hdecodes gs).mpr rfl, (herror _).mp (by decide +kernel)⟩

end Scriptlet
