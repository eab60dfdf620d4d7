import Mathlib
import Scriptlet.Proofs.Listings

/-!
# A scanner in any hands

A caller may look at characters, take them, reset, make tokens and let the scanner read on, in any
order and also after a fault.  Each of these comes down to three kinds of steps: a character is
taken, the scanner is reset, a token is made.  Reading on takes the characters of one lexeme after
the other, with a reset behind each gap and a token behind each other lexeme (`Scanner.sweep`).  At a
fault it stops without a reset.

* `Scanner.tokenize_eq_steps` — reading on is that sequence of steps.
* `Scanner.Consistent` — what a scanner's fields are, given the steps so far: where it stands, which
  characters it holds and where they start.  `Scanner.Consistent.step` is what one step does to it,
  and `Scanner.Consistent.steps` what a sequence of steps does.
* `Scanner.Consistent.glyphs_unreadText` — the unread bytes are read as what a scanner has yet to
  take.
* **`scanner_any_use`** — all this for every source and all sequences of calls.  Reading on finds in
  the unread bytes what a scan of them finds, from the place on that the scanner has reached.
-/

namespace Scriptlet

namespace Scanner

/-! ## Steps and calls -/

/-- What a scanner does one at a time. -/
inductive Step where
  | take
  | reset
  | emit (kind : Kind)
deriving DecidableEq

/-- Whether the characters taken so far are forgotten. -/
def Step.resets : Step → Bool
  | .take => false
  | .reset | .emit _ => true

def step (s : Scanner) : Step → Scanner
  | .take => (s.advance?.map Prod.snd).getD s
  | .reset => s.reset
  | .emit kind => s.emit kind

def steps (s : Scanner) (log : List Step) : Scanner :=
  log.foldl step s

/-- What a caller can ask of a scanner. -/
inductive Call where
  | peek
  | advance
  | reset
  | emit (kind : Kind)
  | tokenize

/-- The scanner behind a call. -/
def perform (s : Scanner) : Call → Scanner
  | .peek => s
  | .advance => (s.advance?.map Prod.snd).getD s
  | .reset => s.reset
  | .emit kind => s.emit kind
  | .tokenize => s.tokenize.1

/-- **A scanner of a source behind some calls.** -/
def after (source : Text) (calls : List Call) : Scanner :=
  calls.foldl perform (ofText source)

/-- The steps in which characters are read lexeme by lexeme, up to a fault. -/
def sweep : List Char → List Step
  | [] => []
  | c :: cs =>
    let lexeme := Lexeme.front c cs
    let takes := List.replicate (lexeme.more + 1) Step.take
    let rest := cs.drop lexeme.more
    match lexeme.shape with
    | .gap => takes ++ .reset :: sweep rest
    | .token kind => takes ++ .emit kind :: sweep rest
    | .fault => takes
termination_by cs => cs.length
decreasing_by all_goals grind

/-- The steps of a call.  At the end of the source nothing is taken. -/
def Call.steps (s : Scanner) : Call → List Step
  | .peek => []
  | .advance => if s.unread.isEmpty then [] else [.take]
  | .reset => [.reset]
  | .emit kind => [.emit kind]
  | .tokenize => .reset :: sweep (s.unread.map Glyph.toChar)

/-- **The steps of some calls**, one after the other. -/
def log (s : Scanner) : List Call → List Step
  | [] => []
  | call :: calls => call.steps s ++ (s.perform call).log calls

/-! ## Reading on, step by step -/

lemma steps_append (s : Scanner) (log more : List Step) :
    s.steps (log ++ more) = (s.steps log).steps more :=
  List.foldl_append

/-- The scanner that has taken some characters more. -/
def taking (s : Scanner) (text : List Char) : Scanner :=
  { s with
    unread := s.unread.drop text.length
    position := s.position.after text
    read := s.read ++ text }

lemma step_take {s : Scanner} {g : Glyph} {gs : List Glyph} (h : s.unread = g :: gs) :
    s.step .take = s.taking [g.toChar] := by
  simp [step, advance?, taking, h, Position.after]

/-- Characters that are there are taken one after the other. -/
lemma steps_takes {s : Scanner} {text rest : List Char}
    (h : s.unread.map Glyph.toChar = text ++ rest) :
    s.steps (List.replicate text.length .take) = s.taking text := by
  induction text generalizing s with
  | nil => simp [steps, taking, Position.after]
  | cons c text ih =>
      obtain ⟨g, gs, hunread, rfl, hgs⟩ : ∃ g gs, s.unread = g :: gs ∧ g.toChar = c ∧
          gs.map Glyph.toChar = text ++ rest := List.map_eq_cons_iff.mp h
      have htake := step_take hunread
      have hrest := ih (s := s.step .take) (by simpa [htake, taking, hunread] using hgs)
      rw [List.length_cons, List.replicate_succ]
      refine hrest.trans ?_
      rw [htake]
      simp [taking, Position.after]

lemma chars_taking {s : Scanner} {text rest : List Char}
    (h : s.unread.map Glyph.toChar = text ++ rest) :
    (s.taking text).unread.map Glyph.toChar = rest := by
  show (s.unread.drop text.length).map Glyph.toChar = rest
  rw [List.map_drop, h, List.drop_left]

lemma sweep_nil : sweep [] = [] := by
  rw [sweep]

section Sweep

variable {c : Char} {cs text rest : List Char}

lemma sweep_of_gap (h : Lexeme.front c (text ++ rest) = ⟨.gap, text.length⟩) :
    sweep (c :: (text ++ rest))
      = List.replicate (c :: text).length .take ++ .reset :: sweep rest := by
  rw [sweep]
  simp [h]

lemma sweep_of_token {kind : Kind}
    (h : Lexeme.front c (text ++ rest) = ⟨.token kind, text.length⟩) :
    sweep (c :: (text ++ rest))
      = List.replicate (c :: text).length .take ++ .emit kind :: sweep rest := by
  rw [sweep]
  simp [h]

lemma sweep_of_fault {n : Nat} (h : Lexeme.front c cs = ⟨.fault, n⟩) :
    sweep (c :: cs) = List.replicate (n + 1) .take := by
  rw [sweep]
  simp [h]

end Sweep

/-- The scanner makes tokens of lexemes. -/
lemma isLexeme_of_front {c : Char} {text rest : List Char} {kind : Kind}
    (h : Lexeme.front c (text ++ rest) = ⟨.token kind, text.length⟩) :
    IsLexeme (.token kind) (c :: text) rest := by
  have hchosen := Lexeme.front_chosen c (text ++ rest)
  rw [h] at hchosen
  generalize hlexeme : (⟨.token kind, text.length⟩ : Lexeme) = lexeme at hchosen
  cases hchosen with
  | lexeme hlong hcs =>
      obtain ⟨rfl, hlength⟩ := Lexeme.mk.inj hlexeme
      obtain ⟨rfl, rfl⟩ := List.append_inj hcs hlength
      exact hlong.lexeme
  | nothing _ => simp at hlexeme
  | point _ _ _ => simp at hlexeme

/-- A token is on one line. -/
lemma line_after_token (p : Position) {text rest : List Char} {kind : Kind}
    (h : IsLexeme (.token kind) text rest) : (p.after text).line = p.line := by
  have hline {cs : List Char} (p : Position) (hcs : '\n' ∉ cs) : (p.after cs).line = p.line := by
    induction cs generalizing p with
    | nil => rfl
    | cons c cs ih =>
        rw [List.mem_cons, not_or] at hcs
        have hadvance : p.advance c = ⟨p.line, p.col + 1⟩ := if_neg (Ne.symm hcs.1)
        exact (ih (p.advance c) hcs.2).trans (by rw [hadvance])
  refine hline p fun hmem => ?_
  rw [← Text.chars_ofChars text] at hmem
  exact absurd (h.solid.chars _ hmem) (by decide)

section Lexeme

variable {s : Scanner} {c : Char} {text rest : List Char}
  (hs : s.unread.map Glyph.toChar = c :: text ++ rest)

include hs

lemma tokenize_of_gap (h : Lexeme.front c (text ++ rest) = ⟨.gap, text.length⟩) :
    s.tokenize.1 = (s.reset.taking (c :: text)).tokenize.1 := by
  have hrest : (s.reset.taking (c :: text)).unread.map Glyph.toChar = rest := chars_taking hs
  simp only [tokenize, hs, hrest, List.cons_append, lex_of_gap _ h, Lexed.prepend, List.nil_append]
  simp [taking, reset, List.drop_drop]

lemma tokenize_of_token {kind : Kind}
    (h : Lexeme.front c (text ++ rest) = ⟨.token kind, text.length⟩) :
    s.tokenize.1 = ((s.reset.taking (c :: text)).emit kind).tokenize.1 := by
  have hrest : ((s.reset.taking (c :: text)).emit kind).unread.map Glyph.toChar = rest :=
    chars_taking hs
  have hline := line_after_token s.position (isLexeme_of_front h)
  simp only [tokenize, hs, hrest, List.cons_append, lex_of_token _ h, Lexed.prepend]
  simp [taking, emit, reset, hline, List.drop_drop]

omit hs in
lemma tokenize_of_fault {cs : List Char} {n : Nat} (hs : s.unread.map Glyph.toChar = c :: cs)
    (h : Lexeme.front c cs = ⟨.fault, n⟩) (hle : n ≤ cs.length) :
    s.tokenize.1 = s.reset.taking (c :: cs.take n) := by
  have hlex : lex s.position (c :: cs) = ⟨[], (c :: cs.take n).length,
      s.position.after (c :: cs.take n), s.position, c :: cs.take n,
      some (.ofLexeme s.position (c :: cs.take n) c)⟩ := by
    rw [lex]
    simp [h]
  simp [tokenize, hs, hlex, taking, reset, hle]

end Lexeme

/-- **Reading on is a sequence of steps**: those of a reset and of the unread characters, lexeme by
lexeme. -/
theorem tokenize_eq_steps (s : Scanner) :
    s.tokenize.1 = s.steps (.reset :: sweep (s.unread.map Glyph.toChar)) := by
  -- behind a lexeme the scanner reads on as from a reset, so one lexeme is dealt with at a time
  suffices h : ∀ cs, ∀ s : Scanner, s.unread.map Glyph.toChar = cs →
      s.tokenize.1 = s.reset.steps (sweep cs) from h _ s rfl
  intro cs
  induction cs using Lexeme.front_induction with
  | nil =>
      intro s hs
      simp [tokenize, hs, lex, sweep_nil, steps, reset]
  | gap c text rest hgap ih =>
      intro s hs
      rw [← List.cons_append] at hs
      rw [sweep_of_gap hgap, steps_append, steps_takes (s := s.reset) hs, tokenize_of_gap hs hgap]
      exact ih _ (chars_taking (s := s.reset) hs)
  | token c text rest kind hfront ih =>
      intro s hs
      rw [← List.cons_append] at hs
      rw [sweep_of_token hfront, steps_append, steps_takes (s := s.reset) hs,
        tokenize_of_token hs hfront]
      exact ih _ (chars_taking (s := s.reset) hs)
  | fault c cs n hfault hle =>
      intro s hs
      have htext : s.reset.unread.map Glyph.toChar = c :: cs.take n ++ cs.drop n := by
        rw [List.cons_append, List.take_append_drop]
        exact hs
      have hlength : (c :: cs.take n).length = n + 1 := by simp [hle]
      rw [sweep_of_fault hfault, ← hlength, steps_takes htext, tokenize_of_fault hs hfault hle]

/-- Every call is its steps. -/
lemma steps_call (s : Scanner) (call : Call) : s.steps (call.steps s) = s.perform call := by
  cases call with
  | peek => rfl
  | advance =>
      rw [Call.steps]
      split_ifs with hend
      · have hunread : s.unread = [] := List.isEmpty_iff.mp hend
        simp [steps, perform, advance?, hunread]
      · rfl
  | reset => rfl
  | emit kind => rfl
  | tokenize => exact s.tokenize_eq_steps.symm

lemma steps_log (s : Scanner) (calls : List Call) :
    s.steps (s.log calls) = calls.foldl perform s := by
  induction calls generalizing s with
  | nil => rfl
  | cons call calls ih =>
      rw [log, steps_append, steps_call, ih]
      rfl

/-! ## What the steps so far determine -/

/-- How many characters were taken. -/
def taken (log : List Step) : Nat :=
  log.count .take

lemma taken_append (log more : List Step) : taken (log ++ more) = taken log + taken more :=
  List.count_append

/-- A step that is no reset takes a character; any other step leaves the place. -/
lemma step_cases (s : Scanner) (x : Step) :
    x = .take ∨ x.resets ∧ taken [x] = 0 ∧ (s.step x).unread = s.unread ∧
      (s.step x).position = s.position ∧ (s.step x).read = [] ∧
      (s.step x).startCol = s.position.col := by
  cases x with
  | take => exact .inl rfl
  | reset => exact .inr ⟨rfl, rfl, rfl, rfl, rfl, rfl⟩
  | emit kind => exact .inr ⟨rfl, rfl, rfl, rfl, rfl, rfl⟩

/-- The steps up to the last reset, none if there was no reset. -/
def upToReset (log : List Step) : List Step :=
  log.rdropWhile (!·.resets)

/-- **The state of a scanner in terms of the steps so far.** -/
structure Consistent (source : Text) (log : List Step) (s : Scanner) : Prop where
  /-- No more was taken than there is. -/
  taken_le : taken log ≤ source.chars.length
  unread : s.unread = source.glyphs.drop (taken log)
  /-- The line is one more than the newlines taken, and the column one more than the characters taken
  since the last newline. -/
  position : s.position = .behind (source.chars.take (taken log))
  /-- What was taken since the last reset. -/
  read : s.read = (source.chars.take (taken log)).drop (taken (upToReset log))
  /-- The column at the last reset. -/
  startCol : s.startCol = if upToReset log = [] then 0
    else (Position.behind (source.chars.take (taken (upToReset log)))).col

namespace Consistent

variable {source : Text} {log : List Step} {s : Scanner}

lemma ofText (source : Text) : Consistent source [] (ofText source) where
  taken_le := Nat.zero_le _
  unread := rfl
  position := rfl
  read := by simp [Scanner.ofText, taken]
  startCol := rfl

lemma take (h : Consistent source log s) (hunread : s.unread ≠ []) :
    Consistent source (log ++ [.take]) (s.step .take) := by
  obtain ⟨g, rest, hcons⟩ := List.exists_cons_of_ne_nil hunread
  have hdrop : source.glyphs.drop (taken log) = g :: rest := h.unread.symm.trans hcons
  have hnext : source.chars[taken log]? = some g.toChar := by
    rw [Text.chars, List.getElem?_map, ← List.head?_drop, hdrop]
    rfl
  have htake : source.chars.take (taken log + 1) = source.chars.take (taken log) ++ [g.toChar] := by
    rw [List.take_add_one, hnext]
    rfl
  have hstep := step_take hcons
  have htaken : taken (log ++ [.take]) = taken log + 1 := taken_append log [.take]
  have hmark : upToReset (log ++ [.take]) = upToReset log := List.rdropWhile_concat_pos _ _ _ rfl
  have hle : taken (upToReset log) ≤ taken log :=
    (List.rdropWhile_prefix _ log).sublist.count_le _
  constructor
  · rw [htaken]
    exact List.getElem?_eq_some_iff.mp hnext |>.1
  · rw [htaken, hstep]
    show s.unread.drop 1 = _
    rw [h.unread, List.drop_drop]
  · rw [htaken, hstep, htake, ← Position.behind_after, ← h.position]
    rfl
  · rw [htaken, hstep, hmark, htake, List.drop_append_of_le_length, ← h.read]
    · rfl
    · rw [List.length_take, Nat.min_eq_left h.taken_le]
      exact hle
  · rw [hmark, hstep, ← h.startCol]
    rfl

/-- **What one step does.** -/
theorem step (h : Consistent source log s) {x : Step} (hx : x = .take → s.unread ≠ []) :
    Consistent source (log ++ [x]) (s.step x) := by
  rcases step_cases s x with rfl | ⟨hresets, htaken, hunread, hposition, hread, hcol⟩
  · exact h.take (hx rfl)
  · have hall : taken (log ++ [x]) = taken log := by
      rw [taken_append, htaken, Nat.add_zero]
    have hmark : upToReset (log ++ [x]) = log ++ [x] :=
      List.rdropWhile_concat_neg _ _ _ (by simp [hresets])
    constructor
    · rw [hall]
      exact h.taken_le
    · rw [hall, hunread, h.unread]
    · rw [hall, hposition, h.position]
    · rw [hmark, hall, hread]
      simp
    · rw [hmark, hall, hcol, h.position, if_neg (by simp)]

/-- **What a sequence of steps does**, if it takes no more than there is. -/
theorem steps (h : Consistent source log s) {more : List Step}
    (hmore : taken more ≤ s.unread.length) : Consistent source (log ++ more) (s.steps more) := by
  induction more generalizing log s with
  | nil =>
      rw [List.append_nil]
      exact h
  | cons x more ih =>
      rw [← List.singleton_append, taken_append] at hmore
      rw [List.append_cons]
      refine ih (s := s.step x) (h.step ?_) ?_
      · rintro rfl hempty
        rw [hempty] at hmore
        exact absurd hmore (by simp [taken])
      · rcases step_cases s x with rfl | ⟨-, htaken, hunread, -⟩
        · have hlength : (s.step .take).unread.length = s.unread.length - 1 := by
            cases hunread : s.unread <;> simp [Scanner.step, advance?, hunread]
          have hone : taken [.take] = 1 := rfl
          omega
        · rw [hunread]
          omega

end Consistent

/-- Reading on takes no more than there is. -/
lemma taken_sweep_le (cs : List Char) : taken (sweep cs) ≤ cs.length := by
  have htakes (n : Nat) : taken (List.replicate n .take) = n := by simp [taken]
  induction cs using Lexeme.front_induction with
  | nil => rw [sweep_nil]; exact Nat.le_refl 0
  | gap c text rest hgap ih =>
      have hreset : taken (.reset :: sweep rest) = taken (sweep rest) := by simp [taken]
      rw [sweep_of_gap hgap, taken_append, htakes, hreset, ← List.cons_append, List.length_append]
      omega
  | token c text rest kind hfront ih =>
      have hemit : taken (.emit kind :: sweep rest) = taken (sweep rest) := by simp [taken]
      rw [sweep_of_token hfront, taken_append, htakes, hemit, ← List.cons_append, List.length_append]
      omega
  | fault c cs n hfault hle =>
      rw [sweep_of_fault hfault, htakes, List.length_cons]
      omega

lemma taken_call_le (s : Scanner) (call : Call) : taken (call.steps s) ≤ s.unread.length := by
  cases call with
  | peek => exact Nat.zero_le _
  | advance =>
      rw [Call.steps]
      split_ifs with hend
      · exact Nat.zero_le _
      · rw [List.isEmpty_iff] at hend
        exact List.length_pos_iff.mpr hend
  | reset => exact Nat.zero_le _
  | emit kind => exact Nat.zero_le _
  | tokenize =>
      have hsweep := taken_sweep_le (s.unread.map Glyph.toChar)
      rw [List.length_map] at hsweep
      exact hsweep

/-- **Any calls keep a scanner consistent.** -/
theorem Consistent.calls {source : Text} {before : List Step} {s : Scanner}
    (h : Consistent source before s) (calls : List Call) :
    Consistent source (before ++ s.log calls) (calls.foldl perform s) := by
  induction calls generalizing before s with
  | nil =>
      rw [log, List.append_nil]
      exact h
  | cons call calls ih =>
      have hcall := h.steps (taken_call_le s call)
      rw [steps_call] at hcall
      rw [log, ← List.append_assoc]
      exact ih hcall

/-! ## Tokens -/

/-- No call takes tokens away. -/
lemma tokens_perform (s : Scanner) (call : Call) : s.tokens <+: (s.perform call).tokens := by
  cases call with
  | peek => exact List.prefix_refl _
  | advance => cases hunread : s.unread <;> simp [perform, advance?, hunread]
  | reset => exact List.prefix_refl _
  | emit kind => exact List.prefix_append _ _
  | tokenize => exact List.prefix_append _ _

lemma tokens_calls (s : Scanner) (calls : List Call) :
    s.tokens <+: (calls.foldl perform s).tokens := by
  induction calls generalizing s with
  | nil => exact List.prefix_refl _
  | cons call calls ih => exact (tokens_perform s call).trans (ih (s.perform call))

end Scanner

/-! ## Unread bytes -/

namespace Scanner

/-- The last bytes of a source, as many as a scanner has not read. -/
def unreadText (source : Text) (s : Scanner) : Text :=
  ⟨source.bytes.drop (source.bytes.length - s.unreadBytes)⟩

/-- **Reading the unread bytes gives what is unread.** -/
lemma Consistent.glyphs_unreadText {source : Text} {log : List Step} {s : Scanner}
    (h : Consistent source log s) : (s.unreadText source).glyphs = s.unread := by
  have hread := Text.decodes_readGlyphs source.bytes
  have hbytes : source.bytes = (source.glyphs.take (taken log)).flatMap Glyph.bytes
      ++ s.unread.flatMap Glyph.bytes := by
    rw [h.unread, ← List.flatMap_append, List.take_append_drop]
    exact hread.flatMap_bytes.symm
  have hcount (gs : List Glyph) :
      gs.foldr (fun g n => g.width + n) 0 = (gs.flatMap Glyph.bytes).length := by
    induction gs with
    | nil => rfl
    | cons g gs ih => rw [List.foldr_cons, ih, List.flatMap_cons, List.length_append, Glyph.width]
  have hunread : s.unreadText source = ⟨s.unread.flatMap Glyph.bytes⟩ := by
    rw [unreadText, unreadBytes, hcount]
    refine congrArg Text.mk ?_
    conv_lhs => rw [hbytes]
    rw [List.length_append, Nat.add_sub_cancel, List.drop_left]
  rw [hunread, h.unread]
  exact Text.readGlyphs_eq_iff.mpr (hread.drop (taken log))

end Scanner

/-! ## Reading on from another place -/

/-- A place that was counted from `p` on.  On the first line the columns in front of `p` count as
well. -/
def Position.onwards (p q : Position) : Position :=
  ⟨q.line + (p.line - 1), if q.line = 1 then q.col + (p.col - 1) else q.col⟩

def Token.onwards (p : Position) (t : Token) : Token :=
  { t with
    line := t.line + (p.line - 1)
    col := if t.line = 1 then t.col + (p.col - 1) else t.col }

lemma Position.advance_onwards (p : Position) {q : Position} (hq : 1 ≤ q.line) (c : Char) :
    (p.onwards q).advance c = p.onwards (q.advance c) := by
  by_cases hc : c = '\n'
  · have hlater : q.line + 1 ≠ 1 := by omega
    simp only [advance, onwards, hc, if_true, if_neg hlater, Nat.add_right_comm]
  · simp only [advance, onwards, hc, if_false]
    split_ifs <;> simp only [Nat.add_right_comm]

lemma Token.onwards_ofPosition {p : Position} (hline : 1 ≤ p.line) (hcol : 1 ≤ p.col) (kind : Kind)
    (text : Text) (q : Position) :
    (⟨kind, text, (p.onwards q).line, (p.onwards q).col⟩ : Token)
      = onwards p ⟨kind, text, q.line, q.col⟩ := by
  simp only [onwards, Position.onwards, Token.mk.injEq, true_and]
  constructor
  · omega
  · split_ifs <;> omega

/-- A reading from a place on finds what a reading from the start finds, counted from there. -/
lemma lex_onwards (before cs : List Char) :
    let p := Position.behind before
    (lex p cs).fault = (lex .start cs).fault.map (ScanError.move p.onwards) ∧
    (lex p cs).tokens = (lex .start cs).tokens.map (Token.onwards p) := by
  intro p
  have hline : 1 ≤ p.line := Nat.le_add_right 1 _
  have hcol : 1 ≤ p.col := Nat.le_add_right 1 _
  have hnext (q : Position) (c : Char) (hq : 1 ≤ q.line) :
      1 ≤ (q.advance c).line ∧ (p.onwards q).advance c = p.onwards (q.advance c) := by
    refine ⟨?_, p.advance_onwards hq c⟩
    rw [Position.advance]
    split_ifs
    · exact Nat.le_add_left 1 _
    · exact hq
  have hmove := lex_move (P := fun q => 1 ≤ q.line) hnext
    (fun kind text q _ => Token.onwards_ofPosition hline hcol kind text q) (p := .start) le_rfl cs
  have hstart : p.onwards .start = p := by
    show (⟨1 + (p.line - 1), 1 + (p.col - 1)⟩ : Position) = p
    rw [Nat.add_sub_cancel' hline, Nat.add_sub_cancel' hcol]
  rw [hstart] at hmove
  exact hmove

/-- **A scanner in any hands.**  For every source and all calls, the scanner is where its steps so far
took it: place, held characters and start column are what they determine.  Looking at a character
changes nothing and shows what would be taken next.  Tokens are added and never lost.

Reading on adds the tokens that a fresh scanner finds in the unread bytes, up to the error if there
is one.  Their lines go on from the line reached, and on the first of them the columns go on from the
column reached.  The characters held and the tokens made before do not matter. -/
theorem scanner_any_use (source : Text) (calls : List Scanner.Call) :
    let s := Scanner.after source calls
    let log := (Scanner.ofText source).log calls
    let unread := s.unreadText source
    let fresh := (Scanner.ofText unread).tokenize
    s = (Scanner.ofText source).steps log ∧ Scanner.Consistent source log s ∧
    Scanner.after source (calls ++ [.peek]) = s ∧
    s.peek? = source.chars[Scanner.taken log]? ∧ s.peek? = s.advance?.map Prod.fst ∧
    (∀ more, s.tokens <+: (Scanner.after source (calls ++ more)).tokens) ∧
    unread.glyphs = s.unread ∧
    s.tokenize.1.tokens = s.tokens ++ fresh.1.tokens.map (Token.onwards s.position) ∧
    s.tokenize.2 = fresh.2.map (ScanError.move s.position.onwards) ∧
    (∀ ts, scan unread = .ok ts ↔ fresh.2 = none ∧ fresh.1.tokens = ts) ∧
    ∀ e, scan unread = .error e ↔ fresh.2 = some e := by
  intro s log unread fresh
  have hconsistent : Scanner.Consistent source log s :=
    (Scanner.Consistent.ofText source).calls calls
  have hglyphs : unread.glyphs = s.unread := hconsistent.glyphs_unreadText
  have hchars : unread.chars = s.unread.map Glyph.toChar := congrArg (List.map Glyph.toChar) hglyphs
  have hfresh : fresh.1.tokens = (lex .start unread.chars).tokens := List.nil_append _
  obtain ⟨hfault, htokens⟩ := lex_onwards (source.chars.take (Scanner.taken log)) unread.chars
  rw [← hconsistent.position] at hfault htokens
  refine ⟨((Scanner.ofText source).steps_log calls).symm, hconsistent, ?_, ?_, ?_, ?_, hglyphs,
    ?_, ?_, ?_, ?_⟩
  · exact List.foldl_append
  · rw [Scanner.peek?, hconsistent.unread, List.head?_drop, Text.chars, List.getElem?_map]
  · cases hunread : s.unread <;> simp [Scanner.peek?, Scanner.advance?, hunread]
  · intro more
    have hgrown := s.tokens_calls more
    rw [Scanner.after, List.foldl_append]
    exact hgrown
  · rw [hfresh, ← htokens, hchars]
    rfl
  · have hown : s.tokenize.2 = (lex s.position (s.unread.map Glyph.toChar)).fault := rfl
    rw [hown, ← hchars]
    exact hfault
  · intro ts
    rw [hfresh]
    show scan unread = .ok ts ↔ (lex .start unread.chars).fault = none ∧ _
    rw [scan]
    cases (lex .start unread.chars).fault <;> simp
  · intro e
    show scan unread = .error e ↔ (lex .start unread.chars).fault = some e
    rw [scan]
    cases (lex .start unread.chars).fault <;> simp

/-- The point without digits stops the scanner, which holds the half-read number then.  It reads on
behind it, in the column reached. -/
example :
    let stopped := Scanner.after "a\n 12.b\nc" [.advance, .tokenize]
    let done := stopped.perform .tokenize
    stopped.read = "12.".toList ∧ stopped.startCol = 2 ∧ stopped.position = ⟨2, 5⟩ ∧
      done.tokens = [⟨.identifier, "b", 2, 5⟩, ⟨.identifier, "c", 3, 1⟩] := by
  decide +kernel

end Scriptlet
