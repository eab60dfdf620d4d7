import Mathlib
import Scriptlet.Proofs.Translation

/-!
# Where a compilation fails

A compilation stops at the first token that it cannot accept, and its error names a token and an
index.  This file says what the two mean.

**States behind tokens.**  `Attains d ts s` says that the compiler accepts the tokens `ts` one after
the other and is in the state `s` behind them.  Two facts about such states place the errors: the
state knows how many tokens it has read and which was the last (`Attains.index`,
`Attains.previous`), and inside the head of a keyword it also knows where the keyword stands and that
a statement could start there (`Attains.head`).

**Failures.**  A compilation fails at a token that is refused, or because its tokens end too early
(`listing_eq_error_iff`).  `Refusal` lists the tokens that are refused: they are refused at a
statement for what they are, or they end the head of a keyword whose handler refuses the head.

**Completion.**  What was accepted up to a statement, or up to some token of an expression, can be
completed: a terminator ends the expression, and closing delimiters end the open blocks
(`Attains.viable_of_statement`, `Attains.viable_of_expression`).  Inside a head that need not be so,
because the handler may refuse all heads.

* **`compile_error_placed`** — an error names the token at its index; the tokens before it can be
  completed to a program; and where the token was refused at a statement, no program starts with the
  tokens up to it.
-/

namespace Scriptlet

open Compile

/-! ## States behind tokens -/

/-- The compiler accepts the tokens and is in the state behind them. -/
inductive Attains (d : Dialect) : List Token → State → Prop where
  | start : Attains d [] .initial
  | move {ts : List Token} {s s' : State} {t : Token} {out : List Statement} :
      Attains d ts s → Move d s t out s' → Attains d (ts ++ [t]) s'

namespace Attains

variable {d : Dialect} {ts us : List Token} {s s' : State}

lemma of_read (h : Attains d ts s) (hus : (d.read s us).next = .ok s') :
    Attains d (ts ++ us) s' := by
  induction us generalizing ts s with
  | nil =>
      obtain rfl : s = s' := by simpa [Dialect.read] using hus
      simpa using h
  | cons t us ih =>
      cases hstep : (d.step s t).next with
      | error e => simp [Dialect.read, Step.andThen, hstep] at hus
      | ok s₁ =>
          rw [(Dialect.read_cons hstep us).1] at hus
          simpa using ih (h.move (.of_step hstep)) hus

lemma read (h : Attains d ts s) : (d.read .initial ts).next = .ok s := by
  induction h with
  | start => rfl
  | move _ hmove ih =>
      simp [Dialect.read_append, Dialect.read, Step.andThen, ih, hmove.step.1]

end Attains

/-- Reading tokens from the initial state is attaining the state behind them. -/
lemma attains_iff_read {d : Dialect} {ts : List Token} {s : State} :
    Attains d ts s ↔ (d.read .initial ts).next = .ok s := by
  constructor
  · exact Attains.read
  · intro h
    exact Attains.start.of_read h

/-! ## Failures -/

/-- A reading fails at a token that is refused in the state behind the tokens before it. -/
lemma Dialect.read_eq_error {d : Dialect} {s : State} {ts : List Token} {e : SyntaxError}
    (h : (d.read s ts).next = .error e) :
    ∃ before t after s', ts = before ++ t :: after ∧ (d.read s before).next = .ok s' ∧
      (d.step s' t).next = .error e := by
  induction ts generalizing s with
  | nil => simp [Dialect.read] at h
  | cons t ts ih =>
      cases hstep : (d.step s t).next with
      | error e' =>
          have heq : e' = e := by simpa [Dialect.read, Step.andThen, hstep] using h
          exact ⟨[], t, ts, s, rfl, rfl, heq ▸ hstep⟩
      | ok s₁ =>
          rw [(Dialect.read_cons hstep ts).1] at h
          obtain ⟨before, u, after, s', rfl, hbefore, hu⟩ := ih h
          exact ⟨t :: before, u, after, s', rfl, (Dialect.read_cons hstep before).1 ▸ hbefore, hu⟩

/-- A list of tokens compiles if it ends in a state in which it may end. -/
lemma exists_listing_iff {d : Dialect} {ts : List Token} :
    (∃ listing, (d.compile ts).listing = .ok listing) ↔ ∃ s, Attains d ts s ∧ s.finish = none := by
  constructor
  · rintro ⟨listing, h⟩
    obtain ⟨out, s, hreads, hfin, -⟩ := listing_eq_ok_iff_reads.mp h
    exact ⟨s, attains_iff_read.mpr hreads.next, hfin⟩
  · rintro ⟨s, hs, hfin⟩
    exact ⟨_, listing_eq_ok_iff_reads.mpr ⟨_, s, ⟨hs.read, rfl⟩, hfin, rfl⟩⟩

/-- **A compilation fails at the end of its tokens or at a token that is refused.** -/
theorem listing_eq_error_iff {d : Dialect} {ts : List Token} {e : SyntaxError} :
    (d.compile ts).listing = .error e ↔
      (∃ s, Attains d ts s ∧ s.finish = some e) ∨
      ∃ before t after s, ts = before ++ t :: after ∧ Attains d before s ∧
        (d.step s t).next = .error e := by
  rw [Dialect.compile, Dialect.compileFrom_eq_read, Compilation.prepend_listing,
    Step.compilation_listing]
  constructor
  · intro h
    cases hnext : (d.read .initial ts).next with
    | ok s =>
        cases hfin : s.finish with
        | none => simp [hnext, hfin, Except.map] at h
        | some e' =>
            have heq : e' = e := by simpa [hnext, hfin, Except.map] using h
            exact .inl ⟨s, attains_iff_read.mpr hnext, heq ▸ hfin⟩
    | error e' =>
        have heq : e' = e := by simpa [hnext, Except.map] using h
        obtain ⟨before, t, after, s, rfl, hbefore, ht⟩ := Dialect.read_eq_error (heq ▸ hnext)
        exact .inr ⟨before, t, after, s, rfl, attains_iff_read.mpr hbefore, ht⟩
  · rintro (⟨s, hs, hfin⟩ | ⟨before, t, after, s, rfl, hs, ht⟩)
    · simp [hs.read, hfin, Except.map]
    · have hnext : (d.read .initial (before ++ t :: after)).next = .error e := by
        simp [Dialect.read_append, Dialect.read, Step.andThen, hs.read, ht]
      simp [hnext, Except.map]

/-- Whether the error was raised on a token that should start a statement. -/
def SyntaxError.Cause.atStatement : SyntaxError.Cause → Bool
  | illegalStart _ | unknownToken _ | noVariable | unsupportedKeyword _ => true
  | _ => false

/-- The tokens that are refused, with the errors they lead to. -/
inductive Refusal (d : Dialect) (s : State) (t : Token) : SyntaxError → Prop where
  | statement {cause : SyntaxError.Cause} : s.place = .statement → cause.atStatement →
      Refusal d s t ⟨t, s.index, cause⟩
  | head {handler : Handler} {word : Token} {index : Nat} {tokens : List Token}
      {error : HeadError} : s.place = .head handler word index tokens → t.kind = .openDelim →
      handler tokens = .error error →
      Refusal d s t ⟨word, index, .badHead word.literal error⟩

/-- **Every step that refuses its token is one of the refusals.** -/
theorem Refusal.of_step {d : Dialect} {s : State} {t : Token} {e : SyntaxError}
    (h : (d.step s t).next = .error e) : Refusal d s t e := by
  have haccepted {out : List Statement} {s' : State} (hmove : Move d s t out s') :
      Refusal d s t e := by
    rw [hmove.step.1] at h
    simp at h
  cases hs : s.place with
  | statement =>
      have hrefused (cause : SyntaxError.Cause) (hcause : cause.atStatement)
          (hstep : (d.step s t).next = .error ⟨t, s.index, cause⟩) : Refusal d s t e := by
        rw [hstep, Except.error.injEq] at h
        exact h ▸ .statement hs hcause
      cases hk : t.kind with
      | type => exact haccepted (.type hs hk)
      | identifier => exact haccepted (.declare hs hk)
      | equals =>
          by_cases hname : ∃ name, s.previous = some name ∧ name.kind = .identifier
          · obtain ⟨name, hprev, hname⟩ := hname
            exact haccepted (.equals hs hk hprev hname)
          · refine hrefused .noVariable rfl ?_
            simp only [Dialect.step, Dialect.statement, Dialect.start, Step.assign, hs, hk]
            split
            · next name hprev => exact absurd ⟨_, hprev, rfl⟩ hname
            · rfl
      | keyword =>
          cases hfound : d.keywords[t.literal]? with
          | some handler => exact haccepted (.keyword hs hk hfound)
          | none =>
              cases hstrict : d.strict with
              | false => exact haccepted (.ignored hs hk hfound hstrict)
              | true =>
                  refine hrefused (.unsupportedKeyword t.literal) rfl ?_
                  simp [Dialect.step, Dialect.statement, Dialect.start, Dialect.keyword,
                    Step.refuse, hs, hk, hfound, hstrict]
      | closeDelim =>
          cases hblocks : s.blocks with
          | cons word outer => exact haccepted (.closing hs hk hblocks)
          | nil =>
              refine hrefused (.illegalStart t) rfl ?_
              simp [Dialect.step, Dialect.statement, Dialect.start, Step.refuse, hs, hk, hblocks]
      | unknown code =>
          refine hrefused (.unknownToken t) rfl ?_
          simp [Dialect.step, Dialect.statement, Dialect.start, Step.refuse, hs, hk]
      | _ =>
          refine hrefused (.illegalStart t) rfl ?_
          simp [Dialect.step, Dialect.statement, Dialect.start, Step.refuse, hs, hk]
  | expression begun =>
      by_cases hk : t.kind = .terminator
      · exact haccepted (.terminator hs hk)
      · exact haccepted (.operand hs hk)
  | head handler word index tokens =>
      by_cases hk : t.kind = .openDelim
      · cases hfront : handler tokens with
        | ok front => exact haccepted (.opening hs hk hfront)
        | error error =>
            have heq : (⟨word, index, .badHead word.literal error⟩ : SyntaxError) = e := by
              simpa [Dialect.step, Step.head, hs, hk, hfront] using h
            exact heq ▸ .head hs hk hfront
      · exact haccepted (.head hs hk)

/-! ## What a state knows of the tokens before it -/

namespace Attains

variable {d : Dialect} {ts : List Token} {s : State}

lemma index (h : Attains d ts s) : s.index = ts.length := by
  induction h with
  | start => rfl
  | move _ hmove ih =>
      rw [List.length_append, ← ih]
      cases hmove <;> rfl

lemma previous (h : Attains d ts s) : s.previous = ts.getLast? := by
  induction h with
  | start => rfl
  | move _ hmove ih =>
      rw [List.getLast?_concat]
      cases hmove <;> rfl

/-- Inside an expression that has begun, the last token belongs to the expression. -/
lemma begun (h : Attains d ts s) (hs : s.place = .expression true) :
    ∃ before last s₀ begun, ts = before ++ [last] ∧ Attains d before s₀ ∧
      s₀.place = .expression begun := by
  cases h with
  | start => simp [State.initial] at hs
  | @move before s₀ _ t out hbefore hmove =>
      cases hmove with
      | operand hs₀ _ => exact ⟨before, t, s₀, _, rfl, hbefore, hs₀⟩
      | type hs₀ _ | declare hs₀ _ | ignored hs₀ _ _ _ | closing hs₀ _ _ =>
          simp [State.read, hs₀] at hs
      | _ => simp at hs

/-- **Inside the head of a keyword** the tokens are those before the keyword, behind which a
statement could start, the keyword, and the head so far. -/
lemma head (h : Attains d ts s) {handler : Handler} {word : Token} {index : Nat}
    {tokens : List Token} (hs : s.place = .head handler word index tokens) :
    ∃ before s₀, ts = before ++ word :: tokens ∧ index = before.length ∧ Attains d before s₀ ∧
      s₀.place = .statement := by
  induction h generalizing tokens with
  | start => simp [State.initial] at hs
  | @move before s₀ _ t out hbefore hmove ih =>
      cases hmove with
      | keyword hs₀ _ _ =>
          simp only [Place.head.injEq] at hs
          obtain ⟨rfl, rfl, rfl, rfl⟩ := hs
          exact ⟨before, s₀, rfl, hbefore.index, hbefore, hs₀⟩
      | head hs₀ _ =>
          simp only [Place.head.injEq] at hs
          obtain ⟨rfl, rfl, rfl, rfl⟩ := hs
          obtain ⟨front, s₁, rfl, hindex, hfront, hs₁⟩ := ih hs₀
          exact ⟨front, s₁, by simp, hindex, hfront, hs₁⟩
      | type hs₀ _ | declare hs₀ _ | ignored hs₀ _ _ _ | closing hs₀ _ _ =>
          simp [State.read, hs₀] at hs
      | _ => simp at hs

end Attains

/-! ## Completion -/

/-- The tokens can be completed to a list that compiles. -/
def Viable (d : Dialect) (ts : List Token) : Prop :=
  ∃ rest listing, (d.compile (ts ++ rest)).listing = .ok listing

namespace Attains

variable {d : Dialect} {ts : List Token} {s : State}

/-- At a statement, closing delimiters for the open blocks are all that is missing. -/
lemma viable_of_statement (h : Attains d ts s) (hs : s.place = .statement) : Viable d ts := by
  -- by induction on the open blocks, from the innermost on
  induction hblocks : s.blocks generalizing ts s with
  | nil =>
      have hfin : s.finish = none := by simp [State.finish, hs, hblocks]
      obtain ⟨listing, hlisting⟩ := exists_listing_iff.mpr ⟨s, h, hfin⟩
      exact ⟨[], listing, by simpa using hlisting⟩
  | cons word outer ih =>
      let closing : Token := ⟨.closeDelim, "\x7d", 0, 0⟩
      have hmove := Move.closing (d := d) (t := closing) hs rfl hblocks
      obtain ⟨rest, listing, hlisting⟩ := ih (h.move hmove) hs rfl
      exact ⟨closing :: rest, listing, by simpa using hlisting⟩

/-- Inside an expression a terminator leads back to a statement. -/
lemma viable_of_expression (h : Attains d ts s) {begun : Bool}
    (hs : s.place = .expression begun) : Viable d ts := by
  let terminator : Token := ⟨.terminator, ";", 0, 0⟩
  have hmove := Move.terminator (d := d) (t := terminator) hs rfl
  obtain ⟨rest, listing, hlisting⟩ := (h.move hmove).viable_of_statement rfl
  exact ⟨terminator :: rest, listing, by simpa using hlisting⟩

end Attains

/-! ## The places of errors -/

/-- The error stands at its place among the tokens: at the token that it names, or behind the last
token, which it then names. -/
structure Located (ts : List Token) (e : SyntaxError) : Prop where
  index_le : e.index ≤ ts.length
  token : (if e.index < ts.length then ts[e.index]? else ts.getLast?) = some e.token

lemma Located.at_token {before after : List Token} {t : Token} (cause : SyntaxError.Cause) :
    Located (before ++ t :: after) ⟨t, before.length, cause⟩ := by
  constructor <;> simp

lemma Located.at_end {ts : List Token} {t : Token} (ht : ts.getLast? = some t)
    (cause : SyntaxError.Cause) : Located ts ⟨t, ts.length, cause⟩ := by
  constructor <;> simp [ht]

/-- The last token is known unless there is none, and then the tokens may end. -/
lemma Attains.lastToken {d : Dialect} {ts : List Token} {s : State} (h : Attains d ts s)
    {e : SyntaxError} (hfin : s.finish = some e) : ts.getLast? = some s.lastToken := by
  rw [State.lastToken, h.previous]
  cases hlast : ts.getLast? with
  | some t => rfl
  | none =>
      obtain rfl : ts = [] := List.getLast?_eq_none_iff.mp hlast
      obtain rfl : s = .initial := by simpa [Dialect.read] using h.read.symm
      simp [State.finish, State.initial] at hfin

/-- An error at the end of the tokens: where it stands, and what can be completed. -/
lemma Attains.finish_placed {d : Dialect} {ts : List Token} {s : State} {e : SyntaxError}
    (h : Attains d ts s) (hfin : s.finish = some e) :
    Located ts e ∧ e.cause.atStatement = false ∧
      ((∀ word, e.cause ≠ .noOpening word) → Viable d (ts.take e.index)) := by
  have hlast := h.lastToken hfin
  unfold State.finish at hfin
  split at hfin
  · simp at hfin
  · next word outer hs _ =>
      rw [h.index, Option.some.injEq] at hfin
      subst hfin
      refine ⟨.at_end hlast _, rfl, fun _ => ?_⟩
      rw [List.take_length]
      exact h.viable_of_statement hs
  · next begun hs =>
      rw [h.index, Option.some.injEq] at hfin
      subst hfin
      cases begun with
      | false =>
          refine ⟨.at_end hlast _, rfl, fun _ => ?_⟩
          rw [if_neg (by simp), List.take_length]
          exact h.viable_of_expression hs
      | true =>
          -- the error stands at the last token, which belongs to the expression
          obtain ⟨before, last, s₀, begun, rfl, hbefore, hs₀⟩ := h.begun hs
          obtain rfl : last = s.lastToken := by simpa using hlast
          simp only [if_true, List.length_append, List.length_singleton, Nat.add_sub_cancel]
          refine ⟨.at_token _, rfl, fun _ => ?_⟩
          rw [List.take_left]
          exact hbefore.viable_of_expression hs₀
  · next keyword _ _ hs =>
      rw [h.index, Option.some.injEq] at hfin
      subst hfin
      exact ⟨.at_end hlast _, rfl, fun hopening => absurd rfl (hopening keyword.literal)⟩

/-- An error at a token that is refused. -/
lemma Attains.refusal_placed {d : Dialect} {before : List Token} {s : State} {t : Token}
    {e : SyntaxError} (h : Attains d before s) (hrefusal : Refusal d s t e) (after : List Token) :
    Located (before ++ t :: after) e ∧ Viable d ((before ++ t :: after).take e.index) ∧
      (e.cause.atStatement → e.index = before.length) := by
  cases hrefusal with
  | statement hs _ =>
      rw [h.index]
      refine ⟨.at_token _, ?_, fun _ => rfl⟩
      rw [List.take_left]
      exact h.viable_of_statement hs
  | @head handler word index tokens error hs ht herror =>
      -- the error stands at the keyword, in front of the head
      obtain ⟨front, s₀, rfl, rfl, hfront, hs₀⟩ := h.head hs
      rw [List.append_assoc, List.cons_append]
      refine ⟨.at_token _, ?_, by simp [SyntaxError.Cause.atStatement]⟩
      rw [List.take_left]
      exact hfront.viable_of_statement hs₀

/-- **Errors point at the right token.**  An error names the token at its index, or the last token if
it stands behind all tokens.  Unless the opening delimiter of a keyword is missing, the tokens before
the index can be completed to a list that compiles.  If the error was raised on a token that should
start a statement, then every list that starts with the tokens up to and including that token fails
in the same way. -/
theorem compile_error_placed (d : Dialect) (ts : List Token) (e : SyntaxError)
    (h : (d.compile ts).listing = .error e) :
    ts ≠ [] ∧ e.index ≤ ts.length ∧
    (if e.index < ts.length then ts[e.index]? else ts.getLast?) = some e.token ∧
    ((∀ word, e.cause ≠ .noOpening word) →
      ∃ rest listing, (d.compile (ts.take e.index ++ rest)).listing = .ok listing) ∧
    (e.cause.atStatement → e.index < ts.length ∧
      ∀ rest, (d.compile (ts.take (e.index + 1) ++ rest)).listing = .error e) := by
  rcases listing_eq_error_iff.mp h with ⟨s, hs, hfin⟩ | ⟨before, t, after, s, rfl, hs, hstep⟩
  · obtain ⟨hplaced, hcause, hviable⟩ := hs.finish_placed hfin
    have hne : ts ≠ [] := by
      rintro rfl
      simpa using hs.lastToken hfin
    exact ⟨hne, hplaced.index_le, hplaced.token, hviable, fun hat => by simp [hcause] at hat⟩
  · obtain ⟨hplaced, hviable, hindex⟩ := hs.refusal_placed (.of_step hstep) after
    refine ⟨by simp, hplaced.index_le, hplaced.token, fun _ => hviable, ?_⟩
    intro hat
    rw [hindex hat]
    refine ⟨by simp, fun rest => ?_⟩
    refine listing_eq_error_iff.mpr (.inr ⟨before, t, rest, s, ?_, hs, hstep⟩)
    rw [List.take_length_add_append]
    simp

/-- A number where a statement should start, inside two blocks and behind an assignment.  What stands
before it can be completed, and nothing behind it helps. -/
theorem compile_error_placed_nested :
    let ts : List Token :=
      [⟨.keyword, "if", 1, 1⟩, ⟨.number, "1", 1, 4⟩, ⟨.openDelim, "\x7b", 1, 6⟩,
        ⟨.keyword, "if", 2, 1⟩, ⟨.identifier, "a", 2, 4⟩, ⟨.openDelim, "\x7b", 2, 6⟩,
        ⟨.identifier, "x", 3, 1⟩, ⟨.equals, "=", 3, 3⟩, ⟨.number, "2", 3, 5⟩,
        ⟨.terminator, ";", 3, 6⟩, ⟨.number, "7", 4, 1⟩, ⟨.type, "int", 4, 3⟩]
    let e : SyntaxError := ⟨⟨.number, "7", 4, 1⟩, 10, .illegalStart ⟨.number, "7", 4, 1⟩⟩
    (Dialect.standard.compile ts).listing = .error e ∧
    (∃ rest listing, (Dialect.standard.compile (ts.take 10 ++ rest)).listing = .ok listing) ∧
    ∀ rest, (Dialect.standard.compile (ts.take 11 ++ rest)).listing = .error e := by
  intro ts e
  have herror : (Dialect.standard.compile ts).listing = .error e := by decide +kernel
  obtain ⟨-, -, -, hviable, hrefused⟩ := compile_error_placed .standard ts e herror
  exact ⟨herror, hviable (by simp [e]), (hrefused rfl).2⟩

end Scriptlet
