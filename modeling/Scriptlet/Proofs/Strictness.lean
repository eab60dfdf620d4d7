import Mathlib
import Scriptlet.Proofs.ErrorPlaces

/-!
# What a strict dialect rejects

A keyword without a handler is passed over, unless the dialect is strict: then it is an error.  The
same word may also stand in the head of another keyword or in an expression, and there strictness has
no say.  This file compares a strict dialect with the lax one that has the same keywords.

**Step by step.**  The two take the same steps, except at such a keyword where a statement starts
(`Dialect.step_strict`).  So the strict one stands in the same state as the lax one as long as it
goes on at all (`Attains.lax`).

**On whole programs.**  `Program.roles` says for each token of a program whether it stands at a
statement, in a head or in the value of an assignment.  The strict programs are the lax ones in which
every keyword at a statement has a handler (`derives_strict_iff`).

* **`strict_only_rejects`** — what compiles in the strict dialect compiles to the same listing in the
  lax one; an error of the strict dialect is one of the lax dialect too, or names a keyword without a
  handler; and of the programs of the lax dialect it rejects those with such a keyword at a statement.
-/

namespace Scriptlet

open Compile

/-! ## Step by step -/

section Steps

variable {keywords : Keywords} {s : State} {t : Token}

/-- **The steps of the two dialects** are the same, except at a keyword without a handler where a
statement starts. -/
theorem Dialect.step_strict (keywords : Keywords) (s : State) (t : Token) :
    (Dialect.mk keywords true).step s t = (Dialect.mk keywords false).step s t ∨
    (s.place = .statement ∧ t.kind = .keyword ∧ keywords[t.literal]? = none ∧
      ((Dialect.mk keywords true).step s t).next
        = .error ⟨t, s.index, .unsupportedKeyword t.literal⟩) := by
  cases hs : s.place with
  | expression begun => exact .inl (by simp only [step, hs])
  | head handler keyword index tokens => exact .inl (by simp only [step, hs])
  | statement =>
      by_cases hunknown : t.kind = .keyword ∧ keywords[t.literal]? = none
      · obtain ⟨hk, hnone⟩ := hunknown
        refine .inr ⟨rfl, hk, hnone, ?_⟩
        simp [step, statement, start, keyword, Step.refuse, hs, hk, hnone]
      · have hkeyword (hk : t.kind = .keyword) :
            (Dialect.mk keywords true).keyword s t = (Dialect.mk keywords false).keyword s t := by
          obtain ⟨handler, hfound⟩ :=
            Option.ne_none_iff_exists'.mp fun hnone => hunknown ⟨hk, hnone⟩
          simp only [keyword, hfound]
        have hstart : (Dialect.mk keywords true).start s t = (Dialect.mk keywords false).start s t := by
          unfold start
          split
          · rfl
          · rfl
          · rfl
          · next hk => exact hkeyword hk
          · rfl
          · rfl
        exact .inl (by simp only [step, statement, hs, hstart])

/-- The lax dialect comes along as far as the strict one goes. -/
lemma Attains.lax {ts : List Token} (h : Attains ⟨keywords, true⟩ ts s) :
    Attains ⟨keywords, false⟩ ts s := by
  induction h with
  | start => exact .start
  | @move ts s s' t out _ hmove ih =>
      have hstep := hmove.step.1
      rcases Dialect.step_strict keywords s t with heq | ⟨-, -, -, herror⟩
      · rw [heq] at hstep
        exact ih.move (.of_step hstep)
      · rw [herror] at hstep
        simp at hstep

end Steps

/-! ## On whole programs -/

/-- Where in a program a token stands. -/
inductive Role where
  /-- Where a statement starts or ends, or goes on behind a name. -/
  | statement
  /-- Between a keyword and its opening delimiter, which belongs to the head. -/
  | head
  /-- Behind an equals sign, up to the terminator. -/
  | value
deriving DecidableEq, Repr

/-- The tokens of a program, each with its role. -/
def Program.roles : Program → List (Token × Role)
  | done => []
  | type word rest => (word, .statement) :: rest.roles
  | declare name rest => (name, .statement) :: rest.roles
  | assign name equals value terminator rest =>
    (name, .statement) :: (equals, .statement) ::
      (value.map (·, .value) ++ (terminator, .value) :: rest.roles)
  | ignored word rest => (word, .statement) :: rest.roles
  | block word head opening _ body closing rest =>
    (word, .statement) :: (head.map (·, .head) ++ (opening, .head) ::
      (body.roles ++ (closing, .statement) :: rest.roles))

/-- Roles are given to the tokens of the program, in order. -/
lemma Derives.roles_tokens {d : Dialect} {ts : List Token} {p : Program} (h : Derives d ts p) :
    p.roles.map Prod.fst = ts := by
  induction h with
  | done => rfl
  | type _ _ ih | declare _ _ ih | ignored _ _ _ _ ih => simp [Program.roles, ih]
  | assign _ _ _ _ _ ih => simp [Program.roles, ih, Function.comp_def]
  | block _ _ _ _ _ _ _ _ ihbody ihrest => simp [Program.roles, ihbody, ihrest, Function.comp_def]

namespace Program

/-- Every keyword of the program that stands at a statement has a handler. -/
def Handled (keywords : Keywords) (p : Program) : Prop :=
  ∀ x ∈ p.roles, x.2 = .statement → x.1.kind = .keyword → keywords[x.1.literal]? ≠ none

section Handled

variable {keywords : Keywords} {word name equals terminator opening closing : Token}
  {value head : List Token} {front : List Statement} {body rest : Program}

lemma handled_done : Handled keywords done := by
  simp [Handled, roles]

lemma handled_type (hk : word.kind = .type) :
    Handled keywords (type word rest) ↔ Handled keywords rest := by
  simp only [Handled, roles, List.forall_mem_cons]
  simp [hk]

lemma handled_declare (hk : name.kind = .identifier) :
    Handled keywords (declare name rest) ↔ Handled keywords rest := by
  simp only [Handled, roles, List.forall_mem_cons]
  simp [hk]

lemma handled_assign (hk : name.kind = .identifier) (he : equals.kind = .equals) :
    Handled keywords (assign name equals value terminator rest) ↔ Handled keywords rest := by
  simp only [Handled, roles, List.forall_mem_cons, List.forall_mem_append, List.forall_mem_map]
  simp [hk, he]

lemma not_handled_ignored (hk : word.kind = .keyword) (hnone : keywords[word.literal]? = none) :
    ¬ Handled keywords (ignored word rest) := by
  intro h
  exact h (word, .statement) (by simp [roles]) rfl hk hnone

lemma handled_block {handler : Handler} (hsome : keywords[word.literal]? = some handler)
    (hc : closing.kind = .closeDelim) :
    Handled keywords (block word head opening front body closing rest) ↔
      Handled keywords body ∧ Handled keywords rest := by
  simp only [Handled, roles, List.forall_mem_cons, List.forall_mem_append, List.forall_mem_map]
  simp [hsome, hc]

end Handled

end Program

/-- **The strict programs** are the lax ones in which every keyword at a statement has a handler. -/
theorem derives_strict_iff {keywords : Keywords} {ts : List Token} {p : Program} :
    Derives ⟨keywords, true⟩ ts p ↔ Derives ⟨keywords, false⟩ ts p ∧ p.Handled keywords := by
  constructor
  · intro h
    induction h with
    | done => exact ⟨.done, Program.handled_done⟩
    | type hk _ ih => exact ⟨.type hk ih.1, (Program.handled_type hk).mpr ih.2⟩
    | declare hk _ ih => exact ⟨.declare hk ih.1, (Program.handled_declare hk).mpr ih.2⟩
    | assign hk he hv ht _ ih =>
        exact ⟨.assign hk he hv ht ih.1, (Program.handled_assign hk he).mpr ih.2⟩
    | ignored _ _ hstrict => simp at hstrict
    | block hk hsome hhead hfront ho _ hc _ ihbody ihrest =>
        exact ⟨.block hk hsome hhead hfront ho ihbody.1 hc ihrest.1,
          (Program.handled_block hsome hc).mpr ⟨ihbody.2, ihrest.2⟩⟩
  · rintro ⟨h, hhandled⟩
    induction h with
    | done => exact .done
    | type hk _ ih => exact .type hk (ih ((Program.handled_type hk).mp hhandled))
    | declare hk _ ih => exact .declare hk (ih ((Program.handled_declare hk).mp hhandled))
    | assign hk he hv ht _ ih =>
        exact .assign hk he hv ht (ih ((Program.handled_assign hk he).mp hhandled))
    | ignored hk hnone _ _ _ => exact absurd hhandled (Program.not_handled_ignored hk hnone)
    | block hk hsome hhead hfront ho _ hc _ ihbody ihrest =>
        obtain ⟨hbody, hrest⟩ := (Program.handled_block hsome hc).mp hhandled
        exact .block hk hsome hhead hfront ho (ihbody hbody) hc (ihrest hrest)

/-- Of a program of the lax dialect the strict one wants handlers for its keywords. -/
lemma Derives.strict_compiles_iff {keywords : Keywords} {ts : List Token} {p : Program}
    (hp : Derives ⟨keywords, false⟩ ts p) :
    (∃ listing, ((Dialect.mk keywords true).compile ts).listing = .ok listing) ↔
      p.Handled keywords := by
  constructor
  · rintro ⟨listing, h⟩
    obtain ⟨q, hq, -⟩ := listing_eq_ok_iff.mp h
    obtain ⟨hlax, hhandled⟩ := derives_strict_iff.mp hq
    rwa [hp.unique hlax]
  · intro hhandled
    exact ⟨_, listing_eq_ok_iff.mpr ⟨p, derives_strict_iff.mpr ⟨hp, hhandled⟩, rfl⟩⟩

/-! ## Both together -/

/-- An error of the strict dialect that the lax one does not have is a keyword without a handler. -/
lemma strict_error {keywords : Keywords} {ts : List Token} {e : SyntaxError}
    (h : ((Dialect.mk keywords true).compile ts).listing = .error e) :
    ((Dialect.mk keywords false).compile ts).listing = .error e ∨
      (e.cause = .unsupportedKeyword e.token.literal ∧ ts[e.index]? = some e.token ∧
        e.token.kind = .keyword ∧ keywords[e.token.literal]? = none) := by
  rcases listing_eq_error_iff.mp h with ⟨s, hs, hfin⟩ | ⟨before, t, after, s, rfl, hs, hstep⟩
  · exact .inl (listing_eq_error_iff.mpr (.inl ⟨s, hs.lax, hfin⟩))
  · rcases Dialect.step_strict keywords s t with heq | ⟨-, hk, hnone, herror⟩
    · rw [heq] at hstep
      exact .inl (listing_eq_error_iff.mpr (.inr ⟨before, t, after, s, rfl, hs.lax, hstep⟩))
    · rw [herror, Except.error.injEq] at hstep
      subst hstep
      exact .inr ⟨rfl, by simp [hs.index], hk, hnone⟩

/-- **Strictness only rejects, and only keywords without a handler.**  What the strict dialect
compiles, the lax one compiles to the same listing.  Where the strict dialect fails, the lax one fails
with the same error, or the error names a keyword without a handler, at its index.  And where the lax
dialect compiles a program, the strict one fails exactly if some keyword of the program without a
handler stands at a statement, not in a head and not in the value of an assignment. -/
theorem strict_only_rejects (keywords : Keywords) (ts : List Token) :
    let strict := ((Dialect.mk keywords true).compile ts).listing
    let lax := ((Dialect.mk keywords false).compile ts).listing
    (∀ listing, strict = .ok listing → lax = .ok listing) ∧
    (∀ e, strict = .error e → lax = .error e ∨
      (e.cause = .unsupportedKeyword e.token.literal ∧ ts[e.index]? = some e.token ∧
        e.token.kind = .keyword ∧ keywords[e.token.literal]? = none)) ∧
    ∀ listing, lax = .ok listing →
      ∃ p, Derives ⟨keywords, false⟩ ts p ∧ p.roles.map Prod.fst = ts ∧
        ((∃ e, strict = .error e) ↔ ∃ word, (word, Role.statement) ∈ p.roles ∧
          word.kind = .keyword ∧ keywords[word.literal]? = none) := by
  intro strict lax
  refine ⟨fun listing h => ?_, fun e h => strict_error h, fun listing h => ?_⟩
  · obtain ⟨p, hp, rfl⟩ := listing_eq_ok_iff.mp h
    exact listing_eq_ok_iff.mpr ⟨p, (derives_strict_iff.mp hp).1, rfl⟩
  · obtain ⟨p, hp, rfl⟩ := listing_eq_ok_iff.mp h
    refine ⟨p, hp, hp.roles_tokens, ?_⟩
    constructor
    · rintro ⟨e, herror⟩
      by_contra hnone
      have hhandled : p.Handled keywords := by
        rintro ⟨word, role⟩ hmem rfl hk hword
        exact hnone ⟨word, hmem, hk, hword⟩
      obtain ⟨listing, hok⟩ := hp.strict_compiles_iff.mpr hhandled
      exact absurd (hok.symm.trans herror) (by simp)
    · rintro ⟨word, hmem, hk, hword⟩
      cases hstrict : strict with
      | error e => exact ⟨e, rfl⟩
      | ok listing =>
          exact absurd hword (hp.strict_compiles_iff.mp ⟨listing, hstrict⟩ _ hmem rfl hk)

/-- A keyword without a handler in the value of an assignment, which both dialects pass over, and in
a body, where the strict one stops. -/
theorem strict_only_rejects_body :
    let strict := Dialect.mk .standard true
    let lax := Dialect.mk .standard false
    let ts : List Token := [⟨.identifier, "x", 1, 1⟩, ⟨.equals, "=", 1, 3⟩, ⟨.keyword, "while", 1, 5⟩,
      ⟨.number, "1", 1, 11⟩, ⟨.terminator, ";", 1, 12⟩]
    let us : List Token := ts ++ [⟨.keyword, "if", 2, 1⟩, ⟨.identifier, "x", 2, 4⟩,
      ⟨.openDelim, "\x7b", 2, 6⟩, ⟨.keyword, "else", 2, 8⟩, ⟨.closeDelim, "\x7d", 2, 13⟩]
    (∃ listing, (strict.compile ts).listing = .ok listing ∧ (lax.compile ts).listing = .ok listing) ∧
    (∃ listing, (lax.compile us).listing = .ok listing) ∧
    ∃ e, (strict.compile us).listing = .error e ∧ us[e.index]? = some e.token ∧
      e.token.kind = .keyword ∧ Keywords.standard[e.token.literal]? = none := by
  intro strict lax ts us
  have hts : (strict.compile ts).listing
      = .ok (seedMarkers ++ [.declare "x", .load "x", .clear "0", .push "1"]) := by decide +kernel
  have hlax : (lax.compile us).listing = .ok (seedMarkers ++ [.declare "x", .load "x", .clear "0",
      .push "1", .test "x", .branch, .endBlock]) := by decide +kernel
  have hstrict : (strict.compile us).listing
      = .error ⟨⟨.keyword, "else", 2, 8⟩, 8, .unsupportedKeyword "else"⟩ := by decide +kernel
  refine ⟨⟨_, hts, (strict_only_rejects .standard ts).1 _ hts⟩, ⟨_, hlax⟩, _, hstrict, ?_⟩
  rcases (strict_only_rejects .standard us).2.1 _ hstrict with hsame | ⟨-, hword⟩
  · exact absurd (hsame.symm.trans hlax) (by simp)
  · exact hword

end Scriptlet
