import Mathlib
import Scriptlet.Proofs.Listings
import Scriptlet.Proofs.Literals

/-!
# What a mismatch names

A test case that keeps a listing is compared with the listing that its script has, line by line.  If
the two differ, the message lists the lines on which they do, by their numbers.

**Lines.**  `Text.lines` are the lines of a text with the newlines that end them, so a text is its
lines one after the other (`Text.concat_lines`), and texts that differ have a line on which they do.

**What is compared.**  The comparison looks at lines without their newlines, and a text that has no
more lines reads as if empty ones followed.  So two differences go unnoticed: a blank line that only
one of the texts has, and the newline behind the last line if only one of them has it
(`Unnoticed`).  Nothing else does (`lineBody_eq_iff`).

**The message.**  Quoted text has no newline in it (`Text.newline_not_mem_quoted`), so the message
can be taken apart again, and `Mismatch.numbersIn` reads the numbers from it.

* **`mismatch_names_lines`** — the numbers in the message are, in increasing order, those of the
  lines on which the texts differ, the unnoticed ones left out.  There are none exactly if the texts
  differ in newlines at the end only.
* `blank_line_unnamed` — a case that fails, with a message that names no line.
-/

namespace Scriptlet

/-! ## Lines -/

namespace Text

/-- Cuts bytes behind every newline. -/
def cutBehind : List UInt8 → List (List UInt8)
  | [] => []
  | b :: rest =>
    if b = newline then [b] :: cutBehind rest
    else
      match cutBehind rest with
      | [] => [[b]]
      | line :: more => (b :: line) :: more

/-- **The lines of a text**, each with the newline that ends it; the last one may lack it. -/
def lines (t : Text) : List Text :=
  (cutBehind t.bytes).map Text.mk

/-- What a line holds in front of its newline.  A line that is not there holds nothing. -/
def lineBody (line : Option Text) : Text :=
  ⟨(line.getD "").bytes.takeWhile (· ≠ newline)⟩

lemma cutBehind_newline (rest : List UInt8) :
    cutBehind (newline :: rest) = [newline] :: cutBehind rest := by
  rw [cutBehind, if_pos rfl]

/-- A byte that is no newline goes to the line that follows it, if there is one. -/
lemma cutBehind_other {b : UInt8} (hb : b ≠ newline) (rest : List UInt8) :
    cutBehind (b :: rest) = (b :: (cutBehind rest).headD []) :: (cutBehind rest).tail := by
  rw [cutBehind, if_neg hb]
  cases cutBehind rest <;> rfl

/-- A text is its lines one after the other. -/
theorem concat_lines (t : Text) : concat t.lines = t := by
  have hflatten (bytes : List UInt8) : (cutBehind bytes).flatten = bytes := by
    induction bytes with
    | nil => rfl
    | cons b rest ih =>
        by_cases hb : b = newline
        · rw [hb, cutBehind_newline, List.flatten_cons, ih]
          rfl
        · rw [cutBehind_other hb, List.flatten_cons]
          cases hrest : cutBehind rest with
          | nil => rw [← ih, hrest]; rfl
          | cons line more => rw [← ih, hrest]; rfl
  refine congrArg Text.mk ?_
  rw [lines, List.flatMap_map]
  exact List.flatMap_id'.trans (hflatten t.bytes)

/-- A line ends in a newline, or is not empty, and has no other newline. -/
lemma mem_cutBehind {bytes line : List UInt8} (h : line ∈ cutBehind bytes) :
    ∃ body, newline ∉ body ∧ (line = body ++ [newline] ∨ line = body ∧ body ≠ []) := by
  induction bytes generalizing line with
  | nil => simp [cutBehind] at h
  | cons b rest ih =>
      by_cases hb : b = newline
      · rw [hb, cutBehind_newline] at h
        rcases List.mem_cons.mp h with rfl | h
        · exact ⟨[], by simp, .inl rfl⟩
        · exact ih h
      · rw [cutBehind_other hb] at h
        cases hrest : cutBehind rest with
        | nil =>
            rw [hrest] at h
            obtain rfl : line = [b] := by simpa using h
            exact ⟨[b], by simpa using Ne.symm hb, .inr ⟨rfl, by simp⟩⟩
        | cons first more =>
            rw [hrest] at h ih
            rcases List.mem_cons.mp h with rfl | h
            · obtain ⟨body, hbody, hfirst⟩ := ih List.mem_cons_self
              refine ⟨b :: body, by simp [hbody, Ne.symm hb], ?_⟩
              rcases hfirst with hfirst | ⟨hfirst, -⟩
              · exact .inl (by simp [hfirst])
              · exact .inr ⟨by simp [hfirst], by simp⟩
            · exact ih (List.mem_cons_of_mem first h)

lemma takeWhile_line {body : List UInt8} (h : newline ∉ body) (rest : List UInt8) :
    (body ++ newline :: rest).takeWhile (· ≠ newline) = body := by
  have hall : ∀ b ∈ body, decide (b ≠ newline) = true := by
    intro b hb
    exact decide_eq_true (ne_of_mem_of_not_mem hb h)
  rw [List.takeWhile_append_of_pos hall]
  simp

lemma takeWhile_body {body : List UInt8} (h : newline ∉ body) :
    body.takeWhile (· ≠ newline) = body := by
  refine List.takeWhile_eq_self_iff.mpr fun b hb => ?_
  exact decide_eq_true (ne_of_mem_of_not_mem hb h)

/-- A line is what it holds and a newline, which the last one may lack if it holds something. -/
lemma line_eq_of_mem {t line : Text} (h : line ∈ t.lines) :
    newline ∉ (lineBody (some line)).bytes ∧
      (line = lineBody (some line) ++ "\n" ∨
        line = lineBody (some line) ∧ lineBody (some line) ≠ "") := by
  obtain ⟨bytes, hmem, rfl⟩ := List.mem_map.mp h
  obtain ⟨body, hbody, rfl | ⟨rfl, hne⟩⟩ := mem_cutBehind hmem
  · have hholds : lineBody (some ⟨body ++ [newline]⟩) = ⟨body⟩ :=
      congrArg Text.mk (takeWhile_line hbody [])
    rw [hholds]
    exact ⟨hbody, .inl rfl⟩
  · have hholds : lineBody (some ⟨bytes⟩) = ⟨bytes⟩ := congrArg Text.mk (takeWhile_body hbody)
    rw [hholds]
    exact ⟨hbody, .inr ⟨rfl, fun hempty => hne (congrArg Text.bytes hempty)⟩⟩

/-- A line that holds nothing is a newline. -/
lemma eq_newline_of_lineBody {t line : Text} (h : line ∈ t.lines)
    (hempty : lineBody (some line) = "") : line = "\n" := by
  rcases (line_eq_of_mem h).2 with hline | ⟨-, hne⟩
  · rw [hline, hempty]
    rfl
  · exact absurd hempty hne

/-- What a line holds is a piece between two newlines. -/
lemma lineBody_lines (t : Text) (i : Nat) : lineBody t.lines[i]? = (t.splitLines[i]?).getD "" := by
  -- both cut the bytes at the same places, and the last piece may be empty
  have hbytes (bytes : List UInt8) (i : Nat) :
      ((cutBehind bytes)[i]?.getD []).takeWhile (· ≠ newline)
        = (((cut newline bytes).1 :: (cut newline bytes).2)[i]?).getD [] := by
    induction bytes generalizing i with
    | nil => cases i <;> simp [cutBehind, cut]
    | cons b rest ih =>
        by_cases hb : b = newline
        · rw [hb, cutBehind_newline, cut, if_pos rfl]
          cases i with
          | zero => simp
          | succ i => simpa using ih i
        · rw [cutBehind_other hb, cut, if_neg hb]
          cases i with
          | zero =>
              have hfirst := ih 0
              cases hrest : cutBehind rest with
              | nil => simpa [hrest, hb] using hfirst
              | cons line more => simpa [hrest, hb] using hfirst
          | succ i =>
              have hlater := ih (i + 1)
              cases hrest : cutBehind rest with
              | nil => simpa [hrest] using hlater
              | cons line more => simpa [hrest] using hlater
  have hline : (t.lines[i]?.getD "").bytes = (cutBehind t.bytes)[i]?.getD [] := by
    rw [lines, List.getElem?_map]
    cases (cutBehind t.bytes)[i]? <;> rfl
  have hpiece : ((t.splitLines[i]?).getD "").bytes
      = (((cut newline t.bytes).1 :: (cut newline t.bytes).2)[i]?).getD [] := by
    rw [splitLines, splitOn, List.getElem?_map]
    cases ((cut newline t.bytes).1 :: (cut newline t.bytes).2)[i]? <;> rfl
  rw [lineBody, hline, hbytes, ← hpiece]

end Text

/-- **The differences between lines that a comparison of what they hold does not notice**: a blank
line against none, and a line against the same one without its newline. -/
inductive Unnoticed : Option Text → Option Text → Prop where
  | blankWanted : Unnoticed (some "\n") none
  | blankGot : Unnoticed none (some "\n")
  | newlineWanted {body : Text} : Text.newline ∉ body.bytes →
      Unnoticed (some (body ++ "\n")) (some body)
  | newlineGot {body : Text} : Text.newline ∉ body.bytes →
      Unnoticed (some body) (some (body ++ "\n"))

namespace Unnoticed

variable {a b : Option Text}

lemma lineBody_eq (h : Unnoticed a b) : Text.lineBody a = Text.lineBody b := by
  have hended {body : Text} (hbody : Text.newline ∉ body.bytes) :
      Text.lineBody (some (body ++ "\n")) = Text.lineBody (some body) :=
    congrArg Text.mk ((Text.takeWhile_line hbody []).trans (Text.takeWhile_body hbody).symm)
  cases h with
  | blankWanted => rfl
  | blankGot => rfl
  | newlineWanted hbody => exact hended hbody
  | newlineGot hbody => exact (hended hbody).symm

end Unnoticed

/-- **Lines hold the same exactly if they are the same or differ unnoticed.** -/
theorem lineBody_eq_iff (s t : Text) (i : Nat) :
    Text.lineBody s.lines[i]? = Text.lineBody t.lines[i]? ↔
      s.lines[i]? = t.lines[i]? ∨ Unnoticed s.lines[i]? t.lines[i]? := by
  have hmem {t line : Text} (h : t.lines[i]? = some line) : line ∈ t.lines :=
    List.mem_of_getElem? h
  have hnone : Text.lineBody none = "" := rfl
  constructor
  · intro h
    cases hs : s.lines[i]? with
    | none =>
        cases ht : t.lines[i]? with
        | none => exact .inl rfl
        | some line =>
            rw [hs, ht, hnone] at h
            rw [Text.eq_newline_of_lineBody (hmem ht) h.symm]
            exact .inr .blankGot
    | some line =>
        cases ht : t.lines[i]? with
        | none =>
            rw [hs, ht, hnone] at h
            rw [Text.eq_newline_of_lineBody (hmem hs) h]
            exact .inr .blankWanted
        | some line' =>
            rw [hs, ht] at h
            obtain ⟨hbody, hline⟩ := Text.line_eq_of_mem (hmem hs)
            obtain ⟨-, hline'⟩ := Text.line_eq_of_mem (hmem ht)
            rw [← h] at hline'
            generalize Text.lineBody (some line) = body at hbody hline hline'
            rcases hline with rfl | ⟨rfl, -⟩ <;> rcases hline' with rfl | ⟨rfl, -⟩
            · exact .inl rfl
            · exact .inr (.newlineWanted hbody)
            · exact .inr (.newlineGot hbody)
            · exact .inl rfl
  · rintro (h | h)
    · rw [h]
    · exact h.lineBody_eq

/-! ## Comparing lines -/

namespace Text

/-- A text of newlines only. -/
def newlines (k : Nat) : Text :=
  ⟨List.replicate k newline⟩

/-- What is cut at a separator can be put together again. -/
lemma flatMap_cut (sep : UInt8) (bytes : List UInt8) :
    (cut sep bytes).1 ++ (cut sep bytes).2.flatMap (sep :: ·) = bytes := by
  induction bytes with
  | nil => rfl
  | cons b rest ih =>
      rw [cut]
      split_ifs with hb
      · rw [hb]
        exact congrArg (sep :: ·) ih
      · exact congrArg (b :: ·) ih

/-- Texts with the same pieces are the same. -/
lemma splitLines_injective {s t : Text} (h : s.splitLines = t.splitLines) : s = t := by
  have hpieces := List.map_injective_iff.mpr (fun _ _ heq => (Text.mk.inj heq)) h
  obtain ⟨hfirst, hrest⟩ := List.cons.inj hpieces
  refine congrArg Text.mk ?_
  rw [← flatMap_cut newline s.bytes, hfirst, hrest, flatMap_cut]

/-- A newline at the end leaves one more piece, an empty one. -/
lemma splitLines_newline (t : Text) : (t ++ "\n").splitLines = t.splitLines ++ [("" : Text)] := by
  have hcut (bytes : List UInt8) :
      cut newline (bytes ++ [newline]) = ((cut newline bytes).1, (cut newline bytes).2 ++ [[]]) := by
    induction bytes with
    | nil => rfl
    | cons b rest ih =>
        rw [List.cons_append, cut, cut, ih]
        split_ifs <;> rfl
  have hbytes : (t ++ "\n").bytes = t.bytes ++ [newline] := rfl
  rw [splitLines, splitOn, hbytes, hcut, ← List.cons_append, List.map_append]
  rfl

lemma splitLines_newlines (t : Text) (k : Nat) :
    (t ++ newlines k).splitLines = t.splitLines ++ List.replicate k ("" : Text) := by
  induction k with
  | zero =>
      rw [List.replicate_zero, List.append_nil]
      exact congrArg splitLines (congrArg Text.mk (List.append_nil t.bytes))
  | succ k ih =>
      have hlast : t ++ newlines (k + 1) = t ++ newlines k ++ "\n" := by
        refine congrArg Text.mk ?_
        rw [newlines, List.replicate_succ', ← List.append_assoc]
        rfl
      rw [hlast, splitLines_newline, ih, List.replicate_succ', List.append_assoc]

lemma splitLines_newlines_getD (t : Text) (k i : Nat) :
    (((t ++ newlines k).splitLines)[i]?).getD "" = (t.splitLines[i]?).getD "" := by
  rw [splitLines_newlines, List.getElem?_append]
  split_ifs with hi
  · rfl
  · rw [List.getElem?_replicate, List.getElem?_eq_none (by omega)]
    split_ifs <;> rfl

/-- **Texts have the same pieces, empty ones at the end aside, exactly if one is the other with
newlines behind it.** -/
theorem splitLines_getD_eq_iff {s t : Text} :
    (∀ i : Nat, (s.splitLines[i]?).getD "" = (t.splitLines[i]?).getD "") ↔
      ∃ k, s = t ++ newlines k ∨ t = s ++ newlines k := by
  -- the pieces of the text that has more of them are those of the other one and empty ones
  have hpadded {a b : List Text} (hlen : a.length ≤ b.length)
      (h : ∀ i : Nat, a[i]?.getD "" = b[i]?.getD "") :
      b = a ++ List.replicate (b.length - a.length) ("" : Text) := by
    refine List.ext_getElem (by simp; omega) fun i hb hab => ?_
    have hi := h i
    rw [List.getElem?_eq_getElem hb, Option.getD_some] at hi
    rw [← hi, List.getElem_append]
    split_ifs with ha
    · rw [List.getElem?_eq_getElem ha, Option.getD_some]
    · rw [List.getElem?_eq_none (by omega), List.getElem_replicate]
      rfl
  constructor
  · intro h
    rcases Nat.le_total s.splitLines.length t.splitLines.length with hlen | hlen
    · refine ⟨t.splitLines.length - s.splitLines.length, .inr (splitLines_injective ?_)⟩
      rw [splitLines_newlines]
      exact hpadded hlen h
    · refine ⟨s.splitLines.length - t.splitLines.length, .inl (splitLines_injective ?_)⟩
      rw [splitLines_newlines]
      exact hpadded hlen fun i => (h i).symm
  · rintro ⟨k, rfl | rfl⟩ i
    · exact splitLines_newlines_getD t k i
    · exact (splitLines_newlines_getD s k i).symm

end Text

namespace Difference

/-- Dropping the newline at the end drops an empty piece only. -/
lemma linesOf_getD (t : Text) (i : Nat) :
    ((linesOf t)[i]?).getD "" = Text.lineBody t.lines[i]? := by
  rw [Text.lineBody_lines, linesOf, Text.dropEnd?]
  split_ifs with hend
  · obtain ⟨front, hfront⟩ := List.isSuffixOf_iff_suffix.mp hend
    have hdropped : t.bytes.take (t.bytes.length - ("\n" : Text).bytes.length) = front := by
      rw [← hfront, List.length_append, Nat.add_sub_cancel, List.take_left]
    have ht : t = ⟨front⟩ ++ Text.newlines 1 := congrArg Text.mk hfront.symm
    rw [Option.getD_some, hdropped]
    exact Text.splitLines_getD_eq_iff.mpr ⟨1, .inr ht⟩ i
  · rfl

/-- The line with a number in two lists of lines. -/
def atLine (line : Nat) (wants gots : List Text) (i : Nat) : Difference :=
  ⟨line + i, (wants[i]?).getD "", (gots[i]?).getD ""⟩

lemma atLine_succ (line : Nat) (wants gots : List Text) (i : Nat) :
    atLine line wants gots (i + 1) = atLine (line + 1) wants.tail gots.tail i := by
  simp only [atLine, List.getElem?_tail, Nat.add_assoc, Nat.add_comm 1 i]

lemma prepend_filter (f : Nat → Difference) (n : Nat) :
    prepend (f 0) (((List.range n).map fun i => f (i + 1)).filter fun d => d.want ≠ d.got)
      = ((List.range (n + 1)).map f).filter fun d => d.want ≠ d.got := by
  rw [List.range_succ_eq_map, List.map_cons, List.map_map, List.filter_cons, prepend]
  by_cases hsame : (f 0).want = (f 0).got
  · simp only [hsame, ne_eq, not_true_eq_false, decide_false, if_true, Bool.false_eq_true, if_false]
    rfl
  · simp only [hsame, ne_eq, not_false_eq_true, decide_true, if_true, if_false]
    rfl

/-- **The comparison goes through all lines that one of the lists has.** -/
lemma ofLines_eq (line : Nat) (wants gots : List Text) :
    ofLines line wants gots
      = ((List.range (max wants.length gots.length)).map (atLine line wants gots)).filter
          fun d => d.want ≠ d.got := by
  fun_induction ofLines line wants gots with
  | case1 => rfl
  | case2 line want wants ih =>
      rw [ih, List.length_cons, List.length_nil, Nat.max_zero, Nat.max_zero, ← prepend_filter]
      simp only [atLine_succ]
      rfl
  | case3 line got gots ih =>
      rw [ih, List.length_cons, List.length_nil, Nat.zero_max, Nat.zero_max, ← prepend_filter]
      simp only [atLine_succ]
      rfl
  | case4 line want wants got gots ih =>
      rw [ih, List.length_cons, List.length_cons, Nat.succ_max_succ, ← prepend_filter]
      simp only [atLine_succ]
      rfl

/-- The lines that are listed are those that do not hold the same, by number. -/
lemma mem_between_iff {want got : Text} {d : Difference} :
    d ∈ between want got ↔ ∃ i, d = atLine 1 (linesOf want) (linesOf got) i ∧
      Text.lineBody want.lines[i]? ≠ Text.lineBody got.lines[i]? := by
  rw [between, ofLines_eq, List.mem_filter, List.mem_map]
  constructor
  · rintro ⟨⟨i, -, rfl⟩, hdiffer⟩
    refine ⟨i, rfl, ?_⟩
    rw [← linesOf_getD, ← linesOf_getD]
    exact of_decide_eq_true hdiffer
  · rintro ⟨i, rfl, hdiffer⟩
    rw [← linesOf_getD, ← linesOf_getD] at hdiffer
    refine ⟨⟨i, ?_, rfl⟩, decide_eq_true hdiffer⟩
    -- behind the last line of both there is nothing to differ
    by_contra hbehind
    rw [List.mem_range, not_lt, max_le_iff] at hbehind
    rw [List.getElem?_eq_none hbehind.1, List.getElem?_eq_none hbehind.2] at hdiffer
    exact hdiffer rfl

lemma succ_mem_between_iff {want got : Text} {i : Nat} :
    i + 1 ∈ (between want got).map line ↔
      Text.lineBody want.lines[i]? ≠ Text.lineBody got.lines[i]? := by
  rw [List.mem_map]
  constructor
  · rintro ⟨d, hd, hline⟩
    obtain ⟨j, rfl, hdiffer⟩ := mem_between_iff.mp hd
    obtain rfl : j = i := by
      have hj : 1 + j = i + 1 := hline
      omega
    exact hdiffer
  · intro hdiffer
    exact ⟨_, mem_between_iff.mpr ⟨i, rfl, hdiffer⟩, Nat.add_comm 1 i⟩

lemma zero_not_mem_between (want got : Text) : 0 ∉ (between want got).map line := by
  intro hmem
  obtain ⟨d, hd, hline⟩ := List.mem_map.mp hmem
  obtain ⟨i, rfl, -⟩ := mem_between_iff.mp hd
  have hi : 1 + i = 0 := hline
  omega

lemma pairwise_between (want got : Text) : ((between want got).map line).Pairwise (· < ·) := by
  rw [between, ofLines_eq, List.pairwise_map]
  refine List.Pairwise.filter _ (List.pairwise_map.mpr (List.pairwise_lt_range.imp ?_))
  intro i j hij
  exact Nat.add_lt_add_left hij 1

/-- No line is listed exactly if one of the texts is the other with newlines behind it. -/
lemma between_eq_nil_iff {want got : Text} :
    between want got = [] ↔
      ∃ k, want = got ++ Text.newlines k ∨ got = want ++ Text.newlines k := by
  rw [← Text.splitLines_getD_eq_iff, List.eq_nil_iff_forall_not_mem]
  constructor
  · intro h i
    by_contra hdiffer
    rw [← Text.lineBody_lines, ← Text.lineBody_lines] at hdiffer
    exact h _ (mem_between_iff.mpr ⟨i, rfl, hdiffer⟩)
  · intro h d hd
    obtain ⟨i, -, hdiffer⟩ := mem_between_iff.mp hd
    rw [Text.lineBody_lines, Text.lineBody_lines] at hdiffer
    exact hdiffer (h i)

end Difference

/-! ## Reading a message -/

namespace Text

lemma newline_not_mem_ofChars {cs : List Char} (h : '\n' ∉ cs) : newline ∉ (ofChars cs).bytes := by
  rw [← List.count_eq_zero, ← count_newline, List.count_eq_zero, chars_ofChars]
  exact h

lemma newline_not_mem_hexDigits (width n : Nat) : '\n' ∉ hexDigits width n := by
  have hdigit : ∀ d < 16, Nat.digitChar d ≠ '\n' := by decide
  induction width generalizing n with
  | zero => simp [hexDigits]
  | succ width ih =>
      have hlast := hdigit (n % 16) (Nat.mod_lt n (by decide))
      simp [hexDigits, ih, Ne.symm hlast]

lemma newline_not_mem_escapeUnprintable (c : Char) : '\n' ∉ escapeUnprintable c := by
  have hletter {l : Char} (h : controlLetter? c = some l) : l ≠ '\n' := by
    unfold controlLetter? at h
    split at h
    all_goals simp only [Option.some.injEq, reduceCtorEq] at h
    all_goals subst h; decide
  unfold escapeUnprintable
  split
  · next l hl => simp [Ne.symm (hletter hl)]
  · split_ifs <;> simp [newline_not_mem_hexDigits]

/-- What is quoted has its newlines written as escapes. -/
lemma newline_not_mem_quotedChars (t : Text) : '\n' ∉ t.quotedChars := by
  have hescape (c : Char) : '\n' ∉ escapeChar '"' c := by
    unfold escapeChar
    split_ifs with hquote hprintable
    · intro hmem
      simp only [Bool.or_eq_true, decide_eq_true_eq] at hquote
      rcases hquote with rfl | rfl <;> simp at hmem
    · have hnot : isPrintable '\n' = false := by decide
      intro hmem
      rw [← List.mem_singleton.mp hmem, hnot] at hprintable
      exact absurd hprintable (by simp)
    · exact newline_not_mem_escapeUnprintable c
  have hglyph (g : Glyph) : '\n' ∉ escapeGlyph '"' g := by
    cases g with
    | char c => exact hescape c
    | stray b => simp [escapeGlyph, newline_not_mem_hexDigits]
  simp [quotedChars, hglyph]

lemma newline_not_mem_quoted (t : Text) : newline ∉ t.quoted.bytes :=
  newline_not_mem_ofChars t.newline_not_mem_quotedChars

lemma newline_not_mem_quotedPadded (width : Nat) (t : Text) :
    newline ∉ (quotedPadded width t).bytes := by
  refine newline_not_mem_ofChars ?_
  simp [newline_not_mem_quotedChars]

end Text

namespace Difference

/-- The line of a message that shows a difference. -/
def text (d : Difference) : Text :=
  .concat [Text.padLeft 4 (.ofNat d.line), ": want ", Text.quotedPadded 16 d.want, " got ",
    d.got.quoted]

lemma render_eq (d : Difference) : d.render = d.text ++ "\n" := by
  refine congrArg Text.mk ?_
  simp only [text, Text.concat, List.flatMap_cons, List.flatMap_nil, List.append_assoc,
    List.nil_append]
  rfl

/-- The number that a line of a message starts with, up to a colon and behind blanks. -/
def numberOf? (line : Text) : Option Nat :=
  Numeral.readNat? ((line.splitFirst 58).1.bytes.dropWhile (· = 32))

/-- Blanks in front of a number do not change it, and it has no colon or newline. -/
lemma padLeft_ofNat (width n : Nat) :
    Numeral.readNat? ((Text.padLeft width (.ofNat n)).bytes.dropWhile (· = 32)) = some n ∧
      58 ∉ (Text.padLeft width (.ofNat n)).bytes ∧
      Text.newline ∉ (Text.padLeft width (.ofNat n)).bytes := by
  obtain ⟨hne, hdigits⟩ := Numeral.digits_of_readNat? (Numeral.readNat?_ofNat n)
  have hother {b : UInt8} (hb : b.toNat < 48 ∨ 57 < b.toNat) : b ∉ (Text.ofNat n).bytes := by
    intro hmem
    have hrange := hdigits b hmem
    omega
  refine ⟨?_, ?_, ?_⟩
  · rw [Text.padLeft, List.dropWhile_append_of_pos (by simp), List.dropWhile_eq_self_iff.mpr]
    · exact Numeral.readNat?_ofNat n
    · intro hlen hblank
      have hmem := List.getElem_mem hlen
      rw [of_decide_eq_true hblank] at hmem
      exact hother (by decide) hmem
  · simp [Text.padLeft, hother (b := 58) (by decide)]
  · have hblank : Text.newline ≠ 32 := by decide
    simp [Text.padLeft, hother (b := Text.newline) (by decide), hblank]

lemma numberOf?_text (d : Difference) : numberOf? d.text = some d.line := by
  obtain ⟨hread, hcolon, -⟩ := padLeft_ofNat 4 d.line
  have hfirst : d.text.splitFirst 58 = (Text.padLeft 4 (.ofNat d.line), _) :=
    Text.splitFirst_append hcolon _
  rw [numberOf?, hfirst]
  exact hread

lemma newline_not_mem_text (d : Difference) : Text.newline ∉ d.text.bytes := by
  have hwant : Text.newline ∉ (": want " : Text).bytes := by decide
  have hgot : Text.newline ∉ (" got " : Text).bytes := by decide
  simp [text, Text.concat, (padLeft_ofNat 4 d.line).2.2, hwant, hgot,
    Text.newline_not_mem_quotedPadded, Text.newline_not_mem_quoted]

end Difference

namespace Mismatch

/-- **The line numbers in a message**: those that its lines start with. -/
def numbersIn (message : Text) : List Nat :=
  message.splitLines.filterMap Difference.numberOf?

/-- The numbers can be read from the message. -/
theorem numbersIn_listing (ds : List Difference) :
    numbersIn (listing ds).message = ds.map Difference.line := by
  have hlines : (listing ds).message
      = .concat ((("listing mismatch:" : Text) :: ds.map Difference.text).map (· ++ "\n")) := by
    have hfirst : ("listing mismatch:\n" : Text) = "listing mismatch:" ++ "\n" := by decide
    rw [message, List.map_cons, List.map_map, hfirst, funext Difference.render_eq]
    rfl
  have hsolid : ∀ line ∈ ("listing mismatch:" : Text) :: ds.map Difference.text,
      Text.newline ∉ line.bytes := by
    intro line hline
    rcases List.mem_cons.mp hline with hline | hline
    · rw [hline]
      decide
    · obtain ⟨d, -, rfl⟩ := List.mem_map.mp hline
      exact d.newline_not_mem_text
  have hheader : Difference.numberOf? "listing mismatch:" = none := by decide
  have hbehind : Difference.numberOf? "" = none := by decide
  have hnumber : Difference.numberOf? ∘ Difference.text = some ∘ Difference.line := by
    funext d
    rw [Function.comp_apply, Function.comp_apply, d.numberOf?_text]
  rw [numbersIn, hlines, Text.splitLines_concat hsolid, List.filterMap_append,
    List.filterMap_cons_none hheader, List.filterMap_cons_none hbehind, List.filterMap_nil,
    List.append_nil, List.filterMap_map, hnumber, List.filterMap_eq_map]

end Mismatch

/-! ## Mismatches -/

namespace Case

variable {c : Case}

lemma judge_ok (herror : c.error.isEmpty) {statements : List Statement}
    (h : format statements ≠ c.want) :
    c.judge (.ok statements)
      = ⟨format statements, some (.listing (Difference.between c.want (format statements)))⟩ := by
  rw [judge, herror]
  exact if_neg h

/-- A listing is reported if it is not the one that the case keeps. -/
lemma judge_listing {r : Except SourceError (List Statement)} {ds : List Difference}
    (h : (c.judge r).mismatch = some (.listing ds)) :
    c.want ≠ (c.judge r).listing ∧ ds = Difference.between c.want (c.judge r).listing := by
  cases r with
  | error e =>
      rw [judge] at h
      split at h
      · simp at h
      · split at h <;> simp at h
  | ok statements =>
      by_cases herror : c.error.isEmpty
      · by_cases hlisting : format statements = c.want
        · simp [judge, herror, hlisting] at h
        · rw [judge_ok herror hlisting] at h ⊢
          exact ⟨Ne.symm hlisting, (Mismatch.listing.inj (Option.some.inj h)).symm⟩
      · simp [judge, herror] at h

end Case

/-- **What a mismatch names.**  The numbers in the message increase, and they are those of the lines
on which the kept text and the listing differ, except where the difference is one that goes
unnoticed.  There always is a line on which they differ.  No line is named exactly if one of the
texts is the other with newlines behind it. -/
theorem mismatch_names_lines (c : Case) (d : Dialect) {ds : List Difference}
    (h : (c.check d).mismatch = some (.listing ds)) :
    let named := Mismatch.numbersIn (Mismatch.listing ds).message
    let want := c.want
    let got := (c.check d).listing
    named.Pairwise (· < ·) ∧ 0 ∉ named ∧
    (∀ i, i + 1 ∈ named ↔
      want.lines[i]? ≠ got.lines[i]? ∧ ¬ Unnoticed want.lines[i]? got.lines[i]?) ∧
    (∃ i : Nat, want.lines[i]? ≠ got.lines[i]?) ∧
    (named = [] ↔ ∃ k, want = got ++ Text.newlines k ∨ got = want ++ Text.newlines k) := by
  intro named want got
  obtain ⟨hne, hds⟩ := Case.judge_listing h
  have hnamed : named = (Difference.between want got).map Difference.line :=
    (Mismatch.numbersIn_listing ds).trans (congrArg _ hds)
  rw [hnamed]
  refine ⟨Difference.pairwise_between want got, Difference.zero_not_mem_between want got, ?_, ?_, ?_⟩
  · intro i
    rw [Difference.succ_mem_between_iff, ne_eq, lineBody_eq_iff, not_or]
  · by_contra hsame
    push Not at hsame
    refine hne ?_
    rw [← Text.concat_lines c.want, List.ext_getElem? hsame, Text.concat_lines]
    rfl
  · rw [List.map_eq_nil_iff, Difference.between_eq_nil_iff]

/-- A lone name declares a variable, so a case that keeps another listing than that one fails. -/
lemma Case.check_declared {c : Case} (hinput : c.input = "x\n") (herror : c.error = "")
    (hwant : c.want ≠ "scope global\ntype int\nop +\nvar x\n") :
    c.check .standard = ⟨"scope global\ntype int\nop +\nvar x\n",
      some (.listing (Difference.between c.want "scope global\ntype int\nop +\nvar x\n"))⟩ := by
  have hlisting : Dialect.listing .standard "x\n"
      = .ok [.scope "global", .type "int", .operator "+", .declare "x"] := by decide +kernel
  have hformat : format [.scope "global", .type "int", .operator "+", .declare "x"]
      = "scope global\ntype int\nop +\nvar x\n" := by decide +kernel
  rw [check, hinput, hlisting, judge_ok (by rw [herror]; rfl) (by rw [hformat]; exact hwant.symm),
    hformat]

/-- The second line and the fourth are others, and the fifth is a blank one, which goes unnoticed. -/
theorem mismatch_names_lines_two :
    let c : Case := ⟨"a", "", "x\n", "scope global\ntype text\nop +\nvar \"y\"\n\n", ""⟩
    let ds : List Difference := [⟨2, "type text", "type int"⟩, ⟨4, "var \"y\"", "var x"⟩]
    let got := (c.check .standard).listing
    (c.check .standard).mismatch = some (.listing ds) ∧
    Mismatch.numbersIn (Mismatch.listing ds).message = [2, 4] ∧
    (∀ i, i + 1 ∈ [2, 4] ↔
      c.want.lines[i]? ≠ got.lines[i]? ∧ ¬ Unnoticed c.want.lines[i]? got.lines[i]?) ∧
    c.want.lines[4]? = some ("\n" : Text) ∧ got.lines[4]? = none := by
  intro c ds got
  have hcheck := Case.check_declared (c := c) rfl rfl (by decide)
  have hds : Difference.between c.want "scope global\ntype int\nop +\nvar x\n" = ds := by
    rw [Difference.between, Difference.ofLines_eq]
    decide +kernel
  have hmismatch : (c.check .standard).mismatch = some (.listing ds) := by
    rw [hcheck, hds]
  have hgot : got = "scope global\ntype int\nop +\nvar x\n" := congrArg Verdict.listing hcheck
  have hnumbers : Mismatch.numbersIn (Mismatch.listing ds).message = [2, 4] :=
    Mismatch.numbersIn_listing ds
  obtain ⟨-, -, hnamed, -, -⟩ := mismatch_names_lines c .standard hmismatch
  rw [hnumbers] at hnamed
  refine ⟨hmismatch, hnumbers, hnamed, by decide +kernel, ?_⟩
  rw [hgot]
  decide +kernel

/-- **A blank line goes unnamed.**  The kept text has a fifth line, a blank one, which the listing
does not have.  The case fails, and the message names no line. -/
theorem blank_line_unnamed :
    let c : Case := ⟨"a", "", "x\n", "scope global\ntype int\nop +\nvar x\n\n", ""⟩
    let got := (c.check .standard).listing
    (c.check .standard).mismatch = some (.listing []) ∧
      (Mismatch.listing []).message = "listing mismatch:\n" ∧
      c.want.lines[4]? = some ("\n" : Text) ∧ got.lines[4]? = none := by
  intro c got
  have hcheck := Case.check_declared (c := c) rfl rfl (by decide)
  have hsame : Difference.between c.want "scope global\ntype int\nop +\nvar x\n" = [] :=
    Difference.between_eq_nil_iff.mpr ⟨1, .inl (by decide +kernel)⟩
  have hgot : got = "scope global\ntype int\nop +\nvar x\n" := congrArg Verdict.listing hcheck
  refine ⟨by rw [hcheck, hsame], by decide, by decide +kernel, ?_⟩
  rw [hgot]
  decide +kernel

end Scriptlet
