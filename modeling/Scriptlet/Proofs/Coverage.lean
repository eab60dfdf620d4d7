import Mathlib
import Scriptlet.Proofs.Uncoloured

/-!
# Colouring loses nothing

Colouring cuts a text at whatever its rules find.  For that to be harmless, the rules of both
grammars have to find something at every place of every text, and what they find has to be a part of
the text.

**What the patterns find.**  `Pattern.Finds p P` says that every match of `p` is a stretch of what is
there, not an empty one, and of the form `P`.  There is one such lemma for each way to make a
pattern, and all else about pieces follows from these (`mem_pieces`).

**Coverage.**  A character is blank or it is not: the first rule of either grammar takes the blank
ones and the last rule all others, a newline being blank.  So some rule matches everywhere
(`Grammar.source_covers`, `Grammar.listing_covers`).

**Lines of a listing.**  A piece of a listing is blank throughout or has no blank character in it, so
it never reaches over the end of a line into the next one, whatever the operand there is
(`pieces_cut`).  A line starts with a mnemonic, and a blank character follows it: so that word is a
piece of its own (`firstMatch?_mnemonic`).

* **`colouring_loses_nothing`** — the pieces of a text are the text, errors are single characters, and
  every line of a compiled listing starts with its mnemonic as a keyword.
-/

namespace Scriptlet.Highlight

open Pattern

/-! ## What the patterns find -/

namespace Pattern

/-- Every match is a stretch of the characters that are there, is not empty and has the form `P`. -/
def Finds (p : Pattern) (P : List Char → Prop) : Prop :=
  ∀ before cs n, p before cs = some n →
    ∃ text rest, cs = text ++ rest ∧ text.length = n ∧ text ≠ [] ∧ P text

variable {p : Pattern} {P Q : List Char → Prop}

lemma Finds.mono (h : Finds p P) (himp : ∀ text, P text → Q text) : Finds p Q := by
  intro before cs n hmatch
  obtain ⟨text, rest, hcs, hlength, hne, htext⟩ := h before cs n hmatch
  exact ⟨text, rest, hcs, hlength, hne, himp text htext⟩

lemma atLeastOne_eq_some {n k : Nat} (h : atLeastOne n = some k) : n = k ∧ 0 < n := by
  unfold atLeastOne at h
  split_ifs at h with hzero
  exact ⟨Option.some.inj h, Nat.pos_of_ne_zero hzero⟩

lemma run_finds (q : Char → Bool) : Finds (run q) fun text => ∀ c ∈ text, q c := by
  intro before cs n hmatch
  obtain ⟨hlength, hpos⟩ := atLeastOne_eq_some hmatch
  refine ⟨cs.takeWhile q, cs.dropWhile q, List.takeWhile_append_dropWhile.symm, hlength,
    List.ne_nil_of_length_pos hpos, fun c hc => List.mem_takeWhile_imp hc⟩

lemma one_finds (q : Char → Bool) : Finds (one q) fun text => ∃ c, text = [c] ∧ q c := by
  intro before cs n hmatch
  cases cs with
  | nil => simp [one] at hmatch
  | cons c cs =>
      rw [one] at hmatch
      split_ifs at hmatch with hc
      exact ⟨[c], cs, rfl, by simpa using hmatch, by simp, c, rfl, hc⟩

lemma string_finds {s : String} (hs : s.toList ≠ []) :
    Finds (string s) fun text => text = s.toList := by
  intro before cs n hmatch
  unfold string at hmatch
  split_ifs at hmatch with hfront
  obtain ⟨rest, hcs⟩ := List.isPrefixOf_iff_prefix.mp hfront
  rw [← String.length_toList] at hmatch
  exact ⟨s.toList, rest, hcs.symm, Option.some.inj hmatch, hs, rfl⟩

lemma any_finds {ps : List Pattern} (h : ∀ p ∈ ps, Finds p P) : Finds (any ps) P := by
  intro before cs n hmatch
  obtain ⟨p, hp, hmatch⟩ := List.exists_of_findSome?_eq_some hmatch
  exact h p hp before cs n hmatch

lemma lineComment_finds : Finds lineComment fun text => ∃ body, text = '/' :: '/' :: body := by
  intro before cs n hmatch
  unfold lineComment at hmatch
  split at hmatch
  · next rest =>
      refine ⟨'/' :: '/' :: rest.takeWhile (· ≠ '\n'), rest.dropWhile (· ≠ '\n'), ?_, ?_, by simp,
        _, rfl⟩
      · simp only [List.cons_append, List.takeWhile_append_dropWhile]
      · simpa using hmatch
  · simp at hmatch

lemma word_finds (w : String) : Finds (word w) fun text => text = w.toList := by
  intro before cs n hmatch
  unfold word at hmatch
  split_ifs at hmatch with hfront
  obtain ⟨hlength, hpos⟩ := atLeastOne_eq_some hmatch
  simp only [Bool.and_eq_true, List.isPrefixOf_iff_prefix] at hfront
  obtain ⟨rest, hcs⟩ := hfront.1.1
  rw [← String.length_toList] at hlength hpos
  exact ⟨w.toList, rest, hcs.symm, hlength, List.ne_nil_of_length_pos hpos, rfl⟩

lemma words_finds (ws : List String) : Finds (words ws) fun text => ∃ w ∈ ws, text = w.toList := by
  refine any_finds fun p hp => ?_
  obtain ⟨w, hw, rfl⟩ := List.mem_map.mp hp
  exact (word_finds w).mono fun text htext => ⟨w, hw, htext⟩

/-- What a number is written with. -/
def isNumberChar (c : Char) : Bool :=
  isAsciiDigit c || c = '.'

lemma number_finds : Finds number fun text => ∀ c ∈ text, isNumberChar c := by
  intro before cs n hmatch
  have hdigit {ds : List Char} : ∀ c ∈ ds.takeWhile isAsciiDigit, isNumberChar c := by
    intro c hc
    simp [isNumberChar, List.mem_takeWhile_imp hc]
  -- the digits alone, if no more of them follow a point
  have hwhole (h : atLeastOne (cs.takeWhile isAsciiDigit).length = some n) :
      ∃ text rest, cs = text ++ rest ∧ text.length = n ∧ text ≠ [] ∧ ∀ c ∈ text, isNumberChar c := by
    obtain ⟨hlength, hpos⟩ := atLeastOne_eq_some h
    exact ⟨_, _, List.takeWhile_append_dropWhile.symm, hlength, List.ne_nil_of_length_pos hpos,
      hdigit⟩
  simp only [number, drop_length_takeWhile] at hmatch
  split at hmatch
  · next after hpoint =>
      split_ifs at hmatch with hnone
      · exact hwhole hmatch
      · obtain ⟨hlength, hpos⟩ := atLeastOne_eq_some hmatch
        refine ⟨cs.takeWhile isAsciiDigit ++ '.' :: after.takeWhile isAsciiDigit,
          after.dropWhile isAsciiDigit, ?_, ?_, by simp, ?_⟩
        · rw [List.append_assoc, List.cons_append, List.takeWhile_append_dropWhile, ← hpoint,
            List.takeWhile_append_dropWhile]
        · simp only [List.length_append, List.length_cons]
          omega
        · intro c hc
          rcases List.mem_append.mp hc with hc | hc
          · exact hdigit c hc
          · rcases List.mem_cons.mp hc with rfl | hc
            · decide
            · exact hdigit c hc
  · exact hwhole hmatch

/-- What a name is written with. -/
def isNameChar (c : Char) : Bool :=
  isAsciiLetter c || isAsciiDigit c || c = '_'

lemma identifier_finds : Finds identifier fun text => ∀ c ∈ text, isNameChar c := by
  intro before cs n hmatch
  cases cs with
  | nil => simp [identifier] at hmatch
  | cons c cs =>
      rw [identifier] at hmatch
      split_ifs at hmatch with hc
      refine ⟨c :: cs.takeWhile isNameChar, cs.dropWhile isNameChar, ?_, Option.some.inj hmatch,
        by simp, ?_⟩
      · rw [List.cons_append, List.takeWhile_append_dropWhile]
      · intro d hd
        rcases List.mem_cons.mp hd with rfl | hd
        · unfold isNameChar
          rcases Bool.or_eq_true _ _ ▸ hc with hc | hc <;> simp [hc]
        · exact List.mem_takeWhile_imp hd

end Pattern

/-! ## Pieces -/

namespace Grammar

variable {g : Grammar} {P : Tint → List Char → Prop}

/-- The matches of every rule have a form that depends on the tint. -/
def Finds (g : Grammar) (P : Tint → List Char → Prop) : Prop :=
  ∀ r ∈ g, Pattern.Finds r.pattern (P r.tint)

/-- Some rule matches at every place of every text. -/
def Covers (g : Grammar) : Prop :=
  ∀ before c cs, (g.firstMatch? before (c :: cs)).isSome

/-- The first match is the match of a rule. -/
lemma Finds.firstMatch? (h : g.Finds P) {before : Option Char} {cs : List Char} {tint : Tint}
    {n : Nat} (hmatch : g.firstMatch? before cs = some (tint, n)) :
    ∃ text rest, cs = text ++ rest ∧ text.length = n ∧ text ≠ [] ∧ P tint text := by
  obtain ⟨r, hr, hfound⟩ := List.exists_of_findSome?_eq_some hmatch
  obtain ⟨k, hk, heq⟩ := Option.map_eq_some_iff.mp hfound
  obtain ⟨rfl, rfl⟩ := Prod.mk.inj heq
  exact h r hr before cs k hk

lemma run_isSome {q : Char → Bool} (before : Option Char) {c : Char} (cs : List Char) (hc : q c) :
    (run q before (c :: cs)).isSome := by
  simp [run, atLeastOne, hc]

/-- A grammar covers if it has the rule for blanks and one that takes whatever is not blank. -/
lemma covers_of_rules {last : Rule} (hblanks : Rule.blanks ∈ g) (hlast : last ∈ g)
    (hother : ∀ before c cs, isBlank c = false → (last.pattern before (c :: cs)).isSome) :
    g.Covers := by
  intro before c cs
  refine List.findSome?_isSome_iff.mpr ?_
  cases hc : isBlank c with
  | true =>
      have hfirst : (Rule.blanks.pattern before (c :: cs)).isSome := run_isSome before cs hc
      exact ⟨.blanks, hblanks, by simpa using hfirst⟩
  | false => exact ⟨last, hlast, by simpa using hother before c cs hc⟩

/-- A newline is blank, so the last rule for scripts takes all that is left for it. -/
theorem source_covers : source.Covers := by
  have hstray : Rule.stray ∈ source := by simp [source, unreserved, marks]
  refine covers_of_rules (by simp [source]) hstray fun before c cs hc => ?_
  have hline : c ≠ '\n' := by
    rintro rfl
    exact absurd hc (by decide)
  simp [Rule.stray, one, hline]

theorem listing_covers : listing.Covers := by
  have hsolid : Rule.solid ∈ listing := by simp [listing]
  refine covers_of_rules (by simp [listing]) hsolid fun before c cs hc => ?_
  exact run_isSome before cs (by simp [hc])

/-- Only one rule for scripts finds errors, and what it finds is one character. -/
theorem source_finds : source.Finds fun tint text => tint = .error → ∃ c, text = [c] := by
  have hother {p : Pattern} {tint : Tint} {P : List Char → Prop} (h : Pattern.Finds p P)
      (htint : tint ≠ .error) :
      Pattern.Finds p fun text => tint = .error → ∃ c, text = [c] :=
    h.mono fun _ _ htext => absurd htext htint
  have hpairs : ∀ s ∈ pairMarks, s.toList ≠ [] := by decide
  have hmarks : Pattern.Finds (any (pairMarks.map string)) fun _ => True := by
    refine any_finds fun p hp => ?_
    obtain ⟨s, hs, rfl⟩ := List.mem_map.mp hp
    exact (string_finds (hpairs s hs)).mono fun _ _ => trivial
  intro r hr
  simp only [source, unreserved, marks, List.mem_cons, List.not_mem_nil, or_false] at hr
  rcases hr with rfl | rfl | rfl | rfl | rfl | rfl | rfl | rfl | rfl | rfl | rfl
  · exact hother (run_finds _) (by decide)
  · exact hother lineComment_finds (by decide)
  · exact hother (words_finds _) (by decide)
  · exact hother (words_finds _) (by decide)
  · exact hother (words_finds _) (by decide)
  · exact hother number_finds (by decide)
  · exact hother identifier_finds (by decide)
  · exact hother hmarks (by decide)
  · exact hother (one_finds _) (by decide)
  · exact hother (one_finds _) (by decide)
  · refine (one_finds _).mono ?_
    rintro text ⟨c, rfl, -⟩ -
    exact ⟨c, rfl⟩

end Grammar

/-- Blank throughout, or without a blank character. -/
def IsEven (text : List Char) : Prop :=
  (∀ c ∈ text, isBlank c) ∨ ∀ c ∈ text, isBlank c = false

lemma isBlank_of_isNameChar {c : Char} (h : isNameChar c) : isBlank c = false := by
  have hascii : c.toNat < 128 := by
    simp only [isNameChar, isAsciiLetter, isAsciiDigit, Bool.or_eq_true, Bool.and_eq_true,
      decide_eq_true_eq, Char.le_def, UInt32.le_iff_toNat_le] at h
    have hbounds : ('Z' : Char).val.toNat = 90 ∧ ('z' : Char).val.toNat = 122 ∧
        ('9' : Char).val.toNat = 57 ∧ ('_' : Char).toNat = 95 := by decide
    show c.val.toNat < 128
    rcases h with (h | h) | rfl
    · omega
    · omega
    · decide
  exact of_ascii (P := fun c => isNameChar c → isBlank c = false) (by decide) hascii h

lemma isBlank_of_isNumberChar {c : Char} (h : isNumberChar c) : isBlank c = false := by
  simp only [isNumberChar, Bool.or_eq_true, decide_eq_true_eq] at h
  rcases h with h | rfl
  · exact isBlank_of_isNameChar (by simp [isNameChar, h])
  · decide

/-- The words that the rules for listings know. -/
def listingWords : List String :=
  mnemonicWords ++ typeWords ++ constantWords

/-- No rule for listings finds an error, and none finds a piece that is blank only in part. -/
theorem Grammar.listing_finds : listing.Finds fun tint text => tint ≠ .error ∧ IsEven text := by
  have hsolid {p : Pattern} {tint : Tint}
      (h : Pattern.Finds p fun text => ∀ c ∈ text, isBlank c = false) (htint : tint ≠ .error) :
      Pattern.Finds p fun text => tint ≠ .error ∧ IsEven text :=
    h.mono fun _ htext => ⟨htint, .inr htext⟩
  have hwords {ws : List String} (hws : ∀ w ∈ ws, w ∈ listingWords) :
      Pattern.Finds (words ws) fun text => ∀ c ∈ text, isBlank c = false := by
    have hall : ∀ w ∈ listingWords, w.toList.all fun c => !isBlank c := by decide
    refine (words_finds ws).mono ?_
    rintro text ⟨w, hw, rfl⟩ c hc
    simpa using List.all_eq_true.mp (hall w (hws w hw)) c hc
  have hnumber : Pattern.Finds number fun text => ∀ c ∈ text, isBlank c = false :=
    number_finds.mono fun _ htext c hc => isBlank_of_isNumberChar (htext c hc)
  have hname : Pattern.Finds identifier fun text => ∀ c ∈ text, isBlank c = false :=
    identifier_finds.mono fun _ htext c hc => isBlank_of_isNameChar (htext c hc)
  have hrest : Pattern.Finds (run (!isBlank ·)) fun text => ∀ c ∈ text, isBlank c = false :=
    (run_finds _).mono fun _ htext c hc => by simpa using htext c hc
  intro r hr
  simp only [listing, List.mem_cons, List.not_mem_nil, or_false] at hr
  rcases hr with rfl | rfl | rfl | rfl | rfl | rfl | rfl
  · exact (run_finds _).mono fun _ htext => ⟨by decide, .inl htext⟩
  · exact hsolid (hwords (by decide)) (by decide)
  · exact hsolid (hwords (by decide)) (by decide)
  · exact hsolid (hwords (by decide)) (by decide)
  · exact hsolid hnumber (by decide)
  · exact hsolid hname (by decide)
  · exact hsolid hrest (by decide)

section Pieces

variable {g : Grammar} {P : Tint → List Char → Prop}

/-- **The next piece** is what a rule finds. -/
lemma pieces_step (hcovers : g.Covers) (hfinds : g.Finds P) (before : Option Char) (c : Char)
    (cs : List Char) :
    ∃ tint text rest, c :: cs = text ++ rest ∧ text ≠ [] ∧ P tint text ∧
      g.firstMatch? before (c :: cs) = some (tint, text.length) ∧
      pieces g before (c :: cs) = ⟨tint, text⟩ :: pieces g text.getLast? rest := by
  obtain ⟨⟨tint, n⟩, hmatch⟩ := Option.isSome_iff_exists.mp (hcovers before c cs)
  obtain ⟨text, rest, hcs, rfl, hne, htext⟩ := hfinds.firstMatch? hmatch
  obtain ⟨d, text, rfl⟩ := List.exists_cons_of_ne_nil hne
  obtain ⟨rfl, hrest⟩ := List.cons.inj hcs
  exact ⟨tint, c :: text, rest, hcs, hne, htext, hmatch, pieces_of_match hrest.symm hmatch⟩

/-- **Every piece is what a rule finds.** -/
theorem mem_pieces (hcovers : g.Covers) (hfinds : g.Finds P) {before : Option Char} {cs : List Char}
    {p : Piece} (hp : p ∈ pieces g before cs) : p.text ≠ [] ∧ P p.tint p.text := by
  induction hn : cs.length using Nat.strong_induction_on generalizing before cs with
  | _ n ih =>
    cases cs with
    | nil => simp [pieces] at hp
    | cons c cs =>
        obtain ⟨tint, text, rest, hcs, hne, htext, -, hpieces⟩ :=
          pieces_step hcovers hfinds before c cs
        rw [hpieces] at hp
        rcases List.mem_cons.mp hp with rfl | hp
        · exact ⟨hne, htext⟩
        · have hshorter : rest.length < n := by
            rw [← hn, hcs, List.length_append]
            have := List.length_pos_of_ne_nil hne
            omega
          exact ih rest.length hshorter hp rfl

end Pieces

/-! ## The lines of a listing -/

section Lines

variable {before : Option Char}

/-- **No piece of a listing reaches from blank characters to others**, or the other way round. -/
theorem pieces_cut (before : Option Char) (front : List Char) {b : Char} {rest : List Char}
    (h : ∀ c ∈ rest.head?, isBlank c ≠ isBlank b) :
    ∃ ps, pieces .listing before (front ++ b :: rest) = ps ++ pieces .listing (some b) rest ∧
      ps.flatMap Piece.text = front ++ [b] := by
  induction hn : front.length using Nat.strong_induction_on generalizing before front with
  | _ n ih =>
    obtain ⟨c, cs, hcons⟩ := List.exists_cons_of_ne_nil
      (List.append_ne_nil_of_right_ne_nil front (List.cons_ne_nil b rest))
    obtain ⟨tint, text, more, hcs, hne, ⟨-, heven⟩, -, hpieces⟩ :=
      pieces_step Grammar.listing_covers Grammar.listing_finds before c cs
    rw [← hcons] at hcs hpieces
    have hlast (htext : text = front ++ [b]) (hmore : more = rest) :
        ∃ ps, pieces .listing before (front ++ b :: rest) = ps ++ pieces .listing (some b) rest ∧
          ps.flatMap Piece.text = front ++ [b] := by
      refine ⟨[⟨tint, text⟩], ?_, by simp [htext]⟩
      rw [hpieces, htext, hmore, List.getLast?_concat]
      rfl
    rw [List.append_cons] at hcs
    rcases List.append_eq_append_iff.mp hcs with ⟨beyond, htext, hrest⟩ | ⟨left, hfront, hmore⟩
    · cases beyond with
      | nil => exact hlast (by simpa using htext) (by simpa using hrest.symm)
      | cons d beyond =>
          -- the piece would hold `b` and the character behind it
          have hb : b ∈ text := by simp [htext]
          have hd : d ∈ text := by simp [htext]
          have hdiffer := h d (by simp [hrest])
          rcases heven with hall | hall
          · exact absurd ((hall d hd).trans (hall b hb).symm) hdiffer
          · exact absurd ((hall d hd).trans (hall b hb).symm) hdiffer
    · rcases left.eq_nil_or_concat with rfl | ⟨inner, d, rfl⟩
      · exact hlast (by simpa using hfront.symm) (by simpa using hmore)
      · rw [List.concat_eq_append, ← List.append_assoc] at hfront
        obtain ⟨rfl, hd⟩ := List.append_inj' hfront rfl
        obtain rfl : b = d := by simpa using hd
        have hshorter : inner.length < n := by
          rw [← hn, List.length_append]
          have := List.length_pos_of_ne_nil hne
          omega
        obtain ⟨ps, hinner, htexts⟩ := ih inner.length hshorter text.getLast? inner rfl
        refine ⟨⟨tint, text⟩ :: ps, ?_, by simp [htexts]⟩
        rw [hpieces, hmore, List.concat_eq_append, List.append_assoc, List.singleton_append, hinner]
        rfl

/-- Where a word ends, the pattern for that word matches and no other one does. -/
lemma word_before {w : String} {m rest : List Char} {d : Char} (hbefore : isInWord before = false)
    (hw : ∀ c ∈ w.toList, isWordChar c) (hm : m ≠ []) (hword : ∀ c ∈ m, isWordChar c)
    (hd : isWordChar d = false) :
    word w before (m ++ d :: rest) = if w = String.ofList m then some m.length else none := by
  have hlength : w.length = w.toList.length := String.length_toList.symm
  by_cases hkey : w = String.ofList m
  · have hlist : w.toList = m := by rw [hkey, String.toList_ofList]
    have hfront : w.toList.isPrefixOf (m ++ d :: rest) = true :=
      List.isPrefixOf_iff_prefix.mpr (hlist ▸ List.prefix_append _ _)
    have hend : isInWord ((m ++ d :: rest).drop w.length).head? = false := by
      rw [hlength, hlist, List.drop_left]
      simpa [isInWord] using hd
    have hpos : m.length ≠ 0 := fun h => hm (List.eq_nil_of_length_eq_zero h)
    rw [if_pos hkey, word, hfront, hbefore, hend, hlength, hlist]
    simp [atLeastOne, hpos]
  · rw [if_neg hkey, word]
    refine if_neg fun h => ?_
    simp only [Bool.and_eq_true, Bool.not_eq_true', List.isPrefixOf_iff_prefix] at h
    obtain ⟨⟨⟨tail, hcs⟩, -⟩, hend⟩ := h
    rw [hlength, ← hcs, List.drop_left] at hend
    rcases List.append_eq_append_iff.mp hcs with ⟨more, hmore, htail⟩ | ⟨more, hmore, htail⟩
    · cases more with
      | nil => exact hkey (by rw [hmore, List.append_nil, String.ofList_toList])
      | cons c more => simp [htail, isInWord, hword c (by simp [hmore])] at hend
    · cases more with
      | nil => exact hkey (by rw [← String.ofList_toList (s := w), hmore, List.append_nil])
      | cons c more =>
          obtain ⟨rfl, -⟩ := List.cons.inj htail
          rw [hw d (by simp [hmore])] at hd
          simp at hd

lemma mnemonic_mem (s : Statement) : ∃ w ∈ mnemonicWords, s.mnemonic.chars = w.toList := by
  cases s <;> exact ⟨_, by decide, Text.chars_ofChars (String.toList _)⟩

lemma mnemonicWords_solid : ∀ w ∈ mnemonicWords,
    w.toList ≠ [] ∧ w.toList.all fun c => isWordChar c && !isBlank c := by
  decide

/-- **A mnemonic in front of a space or a newline is a keyword.** -/
theorem firstMatch?_mnemonic (hbefore : isInWord before = false) (s : Statement) {d : Char}
    (hd : d = ' ' ∨ d = '\n') (rest : List Char) :
    Grammar.firstMatch? .listing before (s.mnemonic.chars ++ d :: rest)
      = some (.keyword, s.mnemonic.chars.length) := by
  obtain ⟨w, hw, hchars⟩ := mnemonic_mem s
  have hsolid {v : String} (hv : v ∈ mnemonicWords) :
      v.toList ≠ [] ∧ ∀ c ∈ v.toList, isWordChar c ∧ isBlank c = false := by
    refine ⟨(mnemonicWords_solid v hv).1, fun c hc => ?_⟩
    simpa using List.all_eq_true.mp (mnemonicWords_solid v hv).2 c hc
  have hend : isWordChar d = false := by
    rcases hd with rfl | rfl <;> decide
  have hwords : words mnemonicWords before (w.toList ++ d :: rest)
      = if w ∈ mnemonicWords then some w.toList.length else none := by
    refine any_map fun v hv => ?_
    rw [word_before hbefore (fun c hc => ((hsolid hv).2 c hc).1) (hsolid hw).1
      (fun c hc => ((hsolid hw).2 c hc).1) hend, String.ofList_toList]
  rw [if_pos hw] at hwords
  have hblank : run isBlank before (w.toList ++ d :: rest) = none := by
    obtain ⟨c, cs, hcons⟩ := List.exists_cons_of_ne_nil (hsolid hw).1
    have hc := ((hsolid hw).2 c (by simp [hcons])).2
    rw [hcons, List.cons_append]
    exact run_eq_none (by simp [hc])
  rw [hchars]
  exact (Grammar.firstMatch?_skip hblank).trans (Grammar.firstMatch?_take hwords)

/-- A line starts with its mnemonic, and a space or the newline follows. -/
lemma line_eq (s : Statement) (rest : List Char) : ∃ d tail, (d = ' ' ∨ d = '\n') ∧
    s.render.chars ++ '\n' :: rest = s.mnemonic.chars ++ d :: tail := by
  unfold Statement.render
  split_ifs
  · exact ⟨'\n', rest, .inr rfl, rfl⟩
  · obtain ⟨w, -, hchars⟩ := mnemonic_mem s
    have hmnemonic : s.mnemonic = .ofChars w.toList := by
      cases s <;> exact congrArg Text.ofChars (((Text.chars_ofChars _).symm.trans hchars))
    have htext : Text.concat [s.mnemonic, " ", s.operand]
        = .ofChars (w.toList ++ [' ']) ++ s.operand := by
      rw [hmnemonic]
      refine congrArg Text.mk ?_
      simp [Text.ofString, Text.ofChars]
    refine ⟨' ', s.operand.chars ++ '\n' :: rest, .inl rfl, ?_⟩
    rw [htext, Text.chars_ofChars_append, hchars]
    simp

lemma format_cons (s : Statement) (listing : List Statement) :
    (format (s :: listing)).chars = s.render.chars ++ '\n' :: (format listing).chars :=
  Text.chars_append_newline s.render (format listing)

/-- The text of a listing does not start with a blank character. -/
lemma format_head (listing : List Statement) :
    ∀ c ∈ (format listing).chars.head?, isBlank c ≠ isBlank '\n' := by
  cases listing with
  | nil => simp [format, Text.concat, Text.chars, Text.glyphs, Text.readGlyphs]
  | cons s listing =>
      obtain ⟨d, tail, -, hline⟩ := line_eq s (format listing).chars
      obtain ⟨w, hw, hchars⟩ := mnemonic_mem s
      obtain ⟨hne, hsolid⟩ := mnemonicWords_solid w hw
      obtain ⟨c, cs, hcons⟩ := List.exists_cons_of_ne_nil hne
      rw [format_cons, hline, hchars, hcons]
      rintro c' ⟨⟩
      have hc := List.all_eq_true.mp hsolid c (by simp [hcons])
      have hnewline : isBlank '\n' = true := by decide
      simp only [Bool.and_eq_true, Bool.not_eq_true'] at hc
      simp [hc.2, hnewline]

/-- **The pieces of a line**: its mnemonic as a keyword, others, and then those of the next line. -/
lemma pieces_line (hbefore : isInWord before = false) (s : Statement) (listing : List Statement) :
    ∃ ps, pieces .listing before (format (s :: listing)).chars
        = ⟨.keyword, s.mnemonic.chars⟩ :: (ps ++ pieces .listing (some '\n') (format listing).chars) ∧
      s.mnemonic.chars ++ ps.flatMap Piece.text = s.render.chars ++ ['\n'] := by
  obtain ⟨d, tail, hd, hline⟩ := line_eq s (format listing).chars
  obtain ⟨ps, hcut, htexts⟩ := pieces_cut before s.render.chars (format_head listing)
  have hfirst : ∃ more, pieces .listing before (s.render.chars ++ '\n' :: (format listing).chars)
      = ⟨.keyword, s.mnemonic.chars⟩ :: more := by
    obtain ⟨w, hw, hchars⟩ := mnemonic_mem s
    obtain ⟨c, cs, hcons⟩ := List.exists_cons_of_ne_nil (mnemonicWords_solid w hw).1
    have hmatch := firstMatch?_mnemonic hbefore s hd tail
    rw [hchars, hcons, List.cons_append, List.length_cons] at hmatch
    have hpieces := pieces_of_match rfl hmatch
    rw [hline, hchars, hcons, List.cons_append]
    exact ⟨_, hpieces⟩
  obtain ⟨more, hfirst⟩ := hfirst
  cases ps with
  | nil => simp at htexts
  | cons p ps =>
      rw [hfirst, List.cons_append] at hcut
      obtain ⟨rfl, hmore⟩ := List.cons.inj hcut
      rw [format_cons, hfirst, hmore]
      exact ⟨ps, rfl, htexts⟩

/-- **Every line starts with a keyword.** -/
theorem pieces_format (hbefore : isInWord before = false) (front : List Statement) (s : Statement)
    (back : List Statement) :
    ∃ ps qs, pieces .listing before (format (front ++ s :: back)).chars
        = ps ++ ⟨.keyword, s.mnemonic.chars⟩ :: qs ∧
      ps.flatMap Piece.text = (format front).chars := by
  induction front generalizing before with
  | nil =>
      obtain ⟨ps, hpieces, -⟩ := pieces_line hbefore s back
      exact ⟨[], _, hpieces, by simp [format, Text.concat, Text.chars, Text.glyphs, Text.readGlyphs]⟩
  | cons u front ih =>
      obtain ⟨ps, hpieces, htexts⟩ := pieces_line hbefore u (front ++ s :: back)
      have hnewline : isInWord (some '\n') = false := by decide
      obtain ⟨qs, rs, hrest, hfront⟩ := ih hnewline
      refine ⟨⟨.keyword, u.mnemonic.chars⟩ :: (ps ++ qs), rs, ?_, ?_⟩
      · rw [List.cons_append, hpieces, hrest, List.cons_append, List.append_assoc]
      · rw [List.flatMap_cons, List.flatMap_append, ← List.append_assoc, htexts, hfront, format_cons]
        simp

end Lines

/-- **Colouring loses nothing.**

* With either grammar some rule matches at every place of every text, a stretch of what is there.
  So the pieces are not empty, and one after the other they are the characters of the text, with
  U+FFFD for bytes that are none and with bare newlines; written without colours they are just that.
* The colouring of a listing has no errors, and an error in that of a script is one character.
* The lines of a compiled listing are its statements, and the piece that starts where the line of a
  statement does is a keyword, the mnemonic of the statement. -/
theorem colouring_loses_nothing :
    (∀ g ∈ [Grammar.source, Grammar.listing],
      (∀ before c cs, ∃ tint n, Grammar.firstMatch? g before (c :: cs) = some (tint, n) ∧
        0 < n ∧ n ≤ (c :: cs).length) ∧
      ∀ t : Text, (∀ p ∈ tokenise g t, p.text ≠ []) ∧
        (tokenise g t).flatMap Piece.text = bareNewlines t.chars ∧
        ∀ style, render (.ofName "noop") style g t = .ofChars (bareNewlines t.chars)) ∧
    (∀ t : Text, ∀ p ∈ tokenise .listing t, p.tint ≠ .error) ∧
    (∀ t : Text, ∀ p ∈ tokenise .source t, p.tint = .error → ∃ c, p.text = [c]) ∧
    ∀ (strict : Bool) (source : Text) (listing : List Statement),
      Dialect.listing ⟨.standard, strict⟩ source = .ok listing →
      (format listing).splitLines = listing.map Statement.render ++ [("" : Text)] ∧
      ∀ front s back, listing = front ++ s :: back → ∃ ps qs,
        tokenise .listing (format listing) = ps ++ ⟨.keyword, s.mnemonic.chars⟩ :: qs ∧
        ps.flatMap Piece.text = (format front).chars := by
  have hboth {g : Grammar} {P : Tint → List Char → Prop} (hcovers : g.Covers) (hfinds : g.Finds P) :
      (∀ before c cs, ∃ tint n, g.firstMatch? before (c :: cs) = some (tint, n) ∧
        0 < n ∧ n ≤ (c :: cs).length) ∧
      ∀ t : Text, (∀ p ∈ tokenise g t, p.text ≠ []) ∧
        (tokenise g t).flatMap Piece.text = bareNewlines t.chars ∧
        ∀ style, render (.ofName "noop") style g t = .ofChars (bareNewlines t.chars) := by
    refine ⟨fun before c cs => ?_, fun t => ⟨fun p hp => (mem_pieces hcovers hfinds hp).1,
      flatMap_pieces g none (bareNewlines t.chars), fun style => render_plain style g t⟩⟩
    obtain ⟨tint, text, rest, hcs, hne, -, hmatch, -⟩ := pieces_step hcovers hfinds before c cs
    refine ⟨tint, text.length, hmatch, List.length_pos_of_ne_nil hne, ?_⟩
    rw [hcs, List.length_append]
    omega
  refine ⟨?_, fun t p hp => ?_, fun t p hp => ?_, fun strict source listing hlisting => ?_⟩
  · intro g hg
    simp only [List.mem_cons, List.not_mem_nil, or_false] at hg
    rcases hg with rfl | rfl
    · exact hboth Grammar.source_covers Grammar.source_finds
    · exact hboth Grammar.listing_covers Grammar.listing_finds
  · exact (mem_pieces Grammar.listing_covers Grammar.listing_finds hp).2.1
  · exact (mem_pieces Grammar.source_covers Grammar.source_finds hp).2
  · refine ⟨splitLines_format (Dialect.listing_newline hlisting), ?_⟩
    rintro front s back rfl
    obtain ⟨cs, htext, hplain⟩ := Dialect.format_isPlain hlisting
    rw [tokenise, htext, Text.chars_ofChars, bareNewlines_of_not_mem hplain,
      ← Text.chars_ofChars cs, ← htext]
    exact pieces_format (by decide) front s back

/-- Bytes that are no character and lone carriage returns, an error in a script, and a listing with
an operand that the rules cut in two. -/
theorem colouring_loses_nothing_cut_operand :
    let t : Text := ⟨[105, 102, 13, 255, 13, 10, 36]⟩
    let listing : List Statement :=
      [.scope "global", .type "int", .operator "+", .declare "pä", .declare "end1"]
    (tokenise .source t).flatMap Piece.text = ['i', 'f', '\n', '\uFFFD', '\n', '$'] ∧
    render (.ofName "noop") .vim .source t = "if\n\uFFFD\n$" ∧
    (∀ p ∈ tokenise .listing t, p.tint ≠ .error) ∧
    (∀ p ∈ tokenise .source t, p.tint = .error → ∃ c, p.text = [c]) ∧
    Dialect.listing ⟨.standard, false⟩ "pä end1" = .ok listing ∧
    ∃ ps qs, tokenise .listing (format listing)
        = ps ++ ⟨.keyword, ("var" : Text).chars⟩ :: qs ∧
      ps.flatMap Piece.text = ("scope global\ntype int\nop +\nvar pä\n" : Text).chars := by
  intro t listing
  obtain ⟨hboth, hnone, hsingle, hlines⟩ := colouring_loses_nothing
  obtain ⟨-, htexts, hplain⟩ := (hboth .source (by simp)).2 t
  have hchars : bareNewlines t.chars = ['i', 'f', '\n', '\uFFFD', '\n', '$'] := by decide +kernel
  have hlisting : Dialect.listing ⟨.standard, false⟩ "pä end1" = .ok listing := by decide +kernel
  rw [hchars] at htexts hplain
  refine ⟨htexts, hplain .vim, hnone t, hsingle t, hlisting, ?_⟩
  exact (hlines false _ listing hlisting).2
    [.scope "global", .type "int", .operator "+", .declare "pä"] (.declare "end1") [] rfl

end Scriptlet.Highlight
