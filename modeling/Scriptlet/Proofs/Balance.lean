import Mathlib
import Scriptlet.Proofs.BlockStructure

/-!
# Every block is opened once and closed once

The statements in front of a body come from the handler of a keyword, which can be anything.  The
compiler opens a block behind them if they open none, and closes one block behind the body.  What
comes of this depends on two things that a handler may do:

* If no handler closes a block, no listing closes more than it has opened (`Derives.code_covered`).
  A handler that opens two leaves one of them open.
* If moreover no handler opens more than one, the listing is a word of matching brackets, and the
  two brackets of a block belong to one keyword (`Derives.owned_nested`).

`Owned` is a statement with the keyword that it belongs to, by the place of the keyword among the
tokens: `Program.owned` is the code of a program with that.  `Nested` are the words of matching
brackets whose two sides have one owner; `Matches` says what a matching pair is by counting alone,
in any listing, and `Nested.same_owner` brings the two together.

* **`compile_blocks_matched`** — all of this, for the listings that the compiler returns.
-/

namespace Scriptlet

open Compile

/-! ## Counting -/

lemma Statement.straight_or_opens_or_ends (s : Statement) :
    s.isStraight ∨ s.opensBlock ∨ s = .endBlock := by
  cases s <;> simp [isStraight, opensBlock]

/-- How many blocks a stretch of statements opens. -/
def openings (l : List Statement) : Nat :=
  l.countP Statement.opensBlock

/-- How many blocks a stretch of statements closes. -/
def endings (l : List Statement) : Nat :=
  l.count .endBlock

@[simp] lemma openings_nil : openings [] = 0 := rfl

@[simp] lemma endings_nil : endings [] = 0 := rfl

@[simp] lemma openings_append (a b : List Statement) :
    openings (a ++ b) = openings a + openings b :=
  List.countP_append

@[simp] lemma endings_append (a b : List Statement) :
    endings (a ++ b) = endings a + endings b :=
  List.count_append

@[simp] lemma openings_end (l : List Statement) : openings (.endBlock :: l) = openings l :=
  List.countP_cons_of_neg (by simp [Statement.opensBlock])

@[simp] lemma endings_end (l : List Statement) : endings (.endBlock :: l) = endings l + 1 :=
  List.count_cons_self

section

variable {s : Statement} {l : List Statement}

lemma openings_of_opens (hs : s.opensBlock) : openings (s :: l) = openings l + 1 :=
  List.countP_cons_of_pos hs

lemma endings_of_opens (hs : s.opensBlock) : endings (s :: l) = endings l :=
  List.count_cons_of_ne (by rintro rfl; simp [Statement.opensBlock] at hs)

lemma openings_of_straight (hs : s.isStraight) : openings (s :: l) = openings l :=
  List.countP_cons_of_neg (by cases s <;> simp_all [Statement.isStraight, Statement.opensBlock])

lemma endings_of_straight (hs : s.isStraight) : endings (s :: l) = endings l :=
  List.count_cons_of_ne (by rintro rfl; simp [Statement.isStraight] at hs)

end

lemma endings_eq_zero {l : List Statement} (h : .endBlock ∉ l) : endings l = 0 :=
  List.count_eq_zero.mpr h

lemma not_mem_of_straight {l : List Statement} (h : ∀ s ∈ l, s.isStraight) : .endBlock ∉ l :=
  fun hmem => by simpa [Statement.isStraight] using h _ hmem

/-! ## Stretches that close what they open -/

/-- Nowhere in the stretch are more blocks closed than were opened in it and `n` before. -/
def Covered (n : Nat) (l : List Statement) : Prop :=
  ∀ pre, pre <+: l → endings pre ≤ n + openings pre

/-- All blocks closed were opened before, and all opened are closed. -/
structure Balanced (l : List Statement) : Prop where
  covered : Covered 0 l
  settled : endings l = openings l

namespace Covered

variable {n k : Nat} {a b l : List Statement}

lemma of_no_end (n : Nat) (h : .endBlock ∉ l) : Covered n l := by
  intro pre hpre
  rw [endings_eq_zero fun hmem => h (hpre.subset hmem)]
  exact Nat.zero_le _

lemma mono (h : Covered n l) (hnk : n ≤ k) : Covered k l := by
  intro pre hpre
  have := h pre hpre
  omega

lemma append (ha : Covered n a) (hb : Covered k b) (hk : k + endings a ≤ n + openings a) :
    Covered n (a ++ b) := by
  intro pre hpre
  rcases List.prefix_or_prefix_of_prefix hpre (List.prefix_append a b) with h | ⟨rest, rfl⟩
  · exact ha pre h
  · have := hb rest ((List.prefix_append_right_inj a).mp hpre)
    simp only [endings_append, openings_append]
    omega

lemma no_end_append (ha : .endBlock ∉ a) (hb : Covered n b) : Covered n (a ++ b) :=
  (of_no_end n ha).append hb (by rw [endings_eq_zero ha]; omega)

/-- The end of a block that is open. -/
lemma close : Covered (n + 1) [.endBlock] := by
  intro pre hpre
  have hle := hpre.sublist.count_le .endBlock
  rw [List.count_singleton_self] at hle
  have : endings pre ≤ 1 := hle
  omega

end Covered

namespace Balanced

variable {s : Statement} {a b : List Statement}

lemma nil : Balanced [] :=
  ⟨.of_no_end 0 (by simp), rfl⟩

lemma append (ha : Balanced a) (hb : Balanced b) : Balanced (a ++ b) where
  covered := ha.covered.append hb.covered (by rw [ha.settled])
  settled := by rw [endings_append, openings_append, ha.settled, hb.settled]

lemma plain (hs : s.isStraight) (ha : Balanced a) : Balanced (s :: a) := by
  have hfirst : Balanced [s] :=
    ⟨.of_no_end 0 (by rw [List.mem_singleton]; rintro rfl; simp [Statement.isStraight] at hs),
      by rw [endings_of_straight hs, openings_of_straight hs]; rfl⟩
  exact hfirst.append ha

/-- A block around a balanced stretch, in front of another one. -/
lemma block (hs : s.opensBlock) (ha : Balanced a) (hb : Balanced b) :
    Balanced (s :: (a ++ .endBlock :: b)) := by
  have hopening : Covered 0 [s] :=
    .of_no_end 0 (by rw [List.mem_singleton]; rintro rfl; simp [Statement.opensBlock] at hs)
  have hinside : Covered 1 (a ++ .endBlock :: b) :=
    (ha.covered.mono (Nat.zero_le 1)).append
      ((Covered.close (n := 0)).append hb.covered (by simp)) (by rw [ha.settled])
  constructor
  · exact hopening.append hinside (by
      simp [openings_of_opens hs, endings_of_opens hs])
  · simp only [openings_of_opens hs, endings_of_opens hs, endings_append, openings_append,
      endings_end, openings_end, ha.settled, hb.settled]
    omega

end Balanced

/-! ## Matching pairs -/

/-- The statement at `i` opens a block and the one at `j` is the end of it: what stands between them
closes all that it opens, and no more. -/
def Matches (l : List Statement) (i j : Nat) : Prop :=
  ∃ (before inside after : List Statement) (opener : Statement),
    l = before ++ opener :: (inside ++ .endBlock :: after) ∧
    before.length = i ∧ i + 1 + inside.length = j ∧ opener.opensBlock ∧ Balanced inside

/-- Where more is opened than closed, one of the openings has only balanced code behind it. -/
lemma exists_opening {l : List Statement} (h : endings l < openings l) :
    ∃ (before inside : List Statement) (opener : Statement), l = before ++ opener :: inside ∧
      opener.opensBlock ∧ Balanced inside := by
  induction hn : l.length using Nat.strong_induction_on generalizing l with
  | _ n ih =>
    rcases l.eq_nil_or_concat with rfl | ⟨l, s, rfl⟩
    · simp at h
    simp only [List.concat_eq_append, endings_append, openings_append, List.length_append,
      List.length_singleton] at h hn ⊢
    rcases s.straight_or_opens_or_ends with hs | hs | rfl
    · rw [endings_of_straight hs, openings_of_straight hs] at h
      obtain ⟨before, inside, opener, rfl, hopener, hinside⟩ := ih l.length (by omega)
        (by simpa using h) rfl
      exact ⟨before, inside ++ [s], opener, by simp, hopener, hinside.append (.plain hs .nil)⟩
    · exact ⟨l, [], s, by simp, hs, .nil⟩
    · -- pass over the block that ends here, from its opening on, and look in front of it
      simp only [endings_end, openings_end, endings_nil, openings_nil] at h
      obtain ⟨front, body, inner, rfl, hinner, hbody⟩ := ih l.length (by omega) (by omega) rfl
      simp only [endings_append, openings_append, endings_of_opens hinner,
        openings_of_opens hinner, hbody.settled, List.length_append, List.length_cons] at h hn
      obtain ⟨before, inside, opener, rfl, hopener, hinside⟩ := ih front.length (by omega)
        (by omega) rfl
      refine ⟨before, inside ++ inner :: (body ++ [.endBlock]), opener, by simp, hopener, ?_⟩
      exact hinside.append (.block hinner hbody .nil)

/-- Where more is closed than opened, one of the ends has only balanced code in front of it. -/
lemma exists_ending {l : List Statement} (h : openings l < endings l) :
    ∃ inside after : List Statement, l = inside ++ .endBlock :: after ∧ Balanced inside := by
  induction hn : l.length using Nat.strong_induction_on generalizing l with
  | _ n ih =>
    cases l with
    | nil => simp at h
    | cons s l =>
      rw [List.length_cons] at hn
      rcases s.straight_or_opens_or_ends with hs | hs | rfl
      · rw [endings_of_straight hs, openings_of_straight hs] at h
        obtain ⟨inside, after, rfl, hinside⟩ := ih l.length (by omega) h rfl
        exact ⟨s :: inside, after, rfl, .plain hs hinside⟩
      · -- pass over the block that starts here, and look behind it
        rw [endings_of_opens hs, openings_of_opens hs] at h
        obtain ⟨body, rest, rfl, hbody⟩ := ih l.length (by omega) (by omega) rfl
        simp only [endings_append, openings_append, endings_end, openings_end, hbody.settled,
          List.length_append, List.length_cons] at h hn
        obtain ⟨inside, after, rfl, hinside⟩ := ih rest.length (by omega) (by omega) rfl
        exact ⟨s :: (body ++ .endBlock :: inside), after, by simp, .block hs hbody hinside⟩
      · exact ⟨[], l, rfl, .nil⟩

namespace Matches

variable {l : List Statement} {i i' j j' : Nat}

/-- Two openings cannot both have only balanced code between them and one end. -/
lemma opening_unique (h : Matches l i j) (h' : Matches l i' j) : i = i' := by
  -- of two, the later one would stand inside the block of the earlier one and not be closed there
  wlog hle : i ≤ i' generalizing i i'
  · exact (this h' h (by omega)).symm
  obtain ⟨before, inside, after, opener, hl, hi, hj, -, hinside⟩ := h
  obtain ⟨before', inside', after', opener', hl', hi', hj', hopener', hinside'⟩ := h'
  by_contra hne
  have hfront : before ++ opener :: inside = before' ++ opener' :: inside' := by
    have hcut : (before ++ opener :: inside) ++ .endBlock :: after
        = (before' ++ opener' :: inside') ++ .endBlock :: after' := by
      simpa using hl.symm.trans hl'
    exact (List.append_inj hcut (by simp; omega)).1
  rcases List.append_eq_append_iff.mp hfront with ⟨gap, rfl, hgap⟩ | ⟨gap, rfl, hgap⟩
  · cases gap with
    | nil => simp at hi'; omega
    | cons s gap =>
        simp only [List.cons_append, List.cons.injEq] at hgap
        have hcovered := hinside.covered gap (hgap.2 ▸ List.prefix_append _ _)
        have hsettled := hinside.settled
        rw [hgap.2] at hsettled
        simp only [endings_append, openings_append, endings_of_opens hopener',
          openings_of_opens hopener', hinside'.settled] at hsettled
        omega
  · simp only [List.length_append] at hi
    have hnil : gap = [] := List.eq_nil_of_length_eq_zero (by omega)
    simp [hnil] at hi hi'
    omega

/-- Two ends cannot both have only balanced code between one opening and them. -/
lemma ending_unique (h : Matches l i j) (h' : Matches l i j') : j = j' := by
  -- of two, the earlier one would close more than is open inside the block of the later one
  wlog hle : j ≤ j' generalizing j j'
  · exact (this h' h (by omega)).symm
  obtain ⟨before, inside, after, opener, hl, hi, hj, -, hinside⟩ := h
  obtain ⟨before', inside', after', opener', hl', hi', hj', -, hinside'⟩ := h'
  have htail : inside ++ .endBlock :: after = inside' ++ .endBlock :: after' :=
    (List.cons.inj (List.append_inj (hl.symm.trans hl') (by omega)).2).2
  rcases List.append_eq_append_iff.mp htail with ⟨gap, rfl, hgap⟩ | ⟨gap, rfl, hgap⟩
  · cases gap with
    | nil => simp at hj'; omega
    | cons s gap =>
        simp only [List.cons_append, List.cons.injEq] at hgap
        obtain ⟨rfl, -⟩ := hgap
        have hcovered := hinside'.covered (inside ++ [.endBlock]) ⟨gap, by simp⟩
        simp only [endings_append, openings_append, endings_end, openings_end, endings_nil,
          openings_nil, hinside.settled] at hcovered
        omega
  · simp only [List.length_append] at hj
    omega

end Matches

/-- In a covered listing every end matches exactly one opening. -/
lemma Covered.exists_matches {l : List Statement} (h : Covered 0 l) {j : Nat}
    (hj : l[j]? = some .endBlock) : ∃! i, Matches l i j := by
  obtain ⟨hlt, hend⟩ := List.getElem?_eq_some_iff.mp hj
  have hsplit : l = l.take j ++ .endBlock :: l.drop (j + 1) := by
    rw [← hend, List.getElem_cons_drop, List.take_append_drop]
  have hcovered := h (l.take j ++ [.endBlock]) ⟨l.drop (j + 1), by simpa using hsplit.symm⟩
  simp only [endings_append, openings_append, endings_end, openings_end, endings_nil,
    openings_nil] at hcovered
  obtain ⟨before, inside, opener, hfront, hopener, hinside⟩ :=
    exists_opening (l := l.take j) (by omega)
  have hlength : before.length + 1 + inside.length = j := by
    have := congrArg List.length hfront
    simp only [List.length_take, List.length_append, List.length_cons] at this
    omega
  have hmatch : Matches l before.length j :=
    ⟨before, inside, l.drop (j + 1), opener, by rw [hfront] at hsplit; simpa using hsplit, rfl,
      hlength, hopener, hinside⟩
  exact ⟨_, hmatch, fun i hi => hi.opening_unique hmatch⟩

/-- In a balanced listing every opening matches exactly one end. -/
lemma Balanced.exists_matches {l : List Statement} (h : Balanced l) {i : Nat} {opener : Statement}
    (hi : l[i]? = some opener) (hopener : opener.opensBlock) : ∃! j, Matches l i j := by
  obtain ⟨hlt, hget⟩ := List.getElem?_eq_some_iff.mp hi
  have hsplit : l = l.take i ++ opener :: l.drop (i + 1) := by
    rw [← hget, List.getElem_cons_drop, List.take_append_drop]
  have hfront := h.covered (l.take i) (List.take_prefix i l)
  have hsettled := h.settled
  rw [hsplit] at hsettled
  simp only [endings_append, openings_append, endings_of_opens hopener,
    openings_of_opens hopener] at hsettled
  obtain ⟨inside, after, htail, hinside⟩ := exists_ending (l := l.drop (i + 1)) (by omega)
  have hmatch : Matches l i (i + 1 + inside.length) :=
    ⟨l.take i, inside, after, opener, by rw [← htail]; exact hsplit,
      by rw [List.length_take]; omega, rfl, hopener, hinside⟩
  exact ⟨_, hmatch, fun j hj => hj.ending_unique hmatch⟩

/-! ## Statements with their owners -/

/-- A statement, and the keyword whose block it opens, prepares or ends: the place of the keyword
among the tokens. -/
structure Owned where
  owner : Option Nat
  statement : Statement

/-- The words of matching brackets in which the two brackets of a pair have one owner. -/
inductive Nested : List Owned → Prop where
  | nil : Nested []
  | plain {e : Owned} {l : List Owned} : e.statement.isStraight → Nested l → Nested (e :: l)
  | block {opener closing : Owned} {owner : Nat} {inside rest : List Owned} :
      opener.statement.opensBlock → opener.owner = some owner →
      closing.statement = .endBlock → closing.owner = some owner →
      Nested inside → Nested rest → Nested (opener :: (inside ++ closing :: rest))

namespace Nested

variable {a b l : List Owned}

lemma plains (h : ∀ e ∈ a, e.statement.isStraight) (hb : Nested b) : Nested (a ++ b) := by
  induction a with
  | nil => exact hb
  | cons e a ih => exact .plain (h e (by simp)) (ih fun e he => h e (by simp [he]))

lemma balanced (h : Nested l) : Balanced (l.map Owned.statement) := by
  induction h with
  | nil => exact .nil
  | plain hs _ ih => exact .plain hs ih
  | block hopens _ hend _ _ _ ihinside ihrest =>
      simpa [hend] using Balanced.block hopens ihinside ihrest

/-- Every end has an opening of its own owner in front of it, with balanced code between. -/
lemma exists_opener (h : Nested l) {closing : Owned} (hclosing : closing.statement = .endBlock)
    (before after : List Owned) (hl : l = before ++ closing :: after) :
    ∃ (front inside : List Owned) (opener : Owned) (owner : Nat),
      before = front ++ opener :: inside ∧ opener.statement.opensBlock ∧
      Balanced (inside.map Owned.statement) ∧ opener.owner = some owner ∧
      closing.owner = some owner := by
  induction h generalizing before after with
  | nil => simp at hl
  | @plain e l hs _ ih =>
      cases before with
      | nil =>
          obtain ⟨rfl, -⟩ := List.cons.inj hl
          simp [hclosing, Statement.isStraight] at hs
      | cons e' before =>
          obtain ⟨rfl, htail⟩ := List.cons.inj hl
          obtain ⟨front, inside, opener, owner, rfl, hrest⟩ := ih _ _ htail
          exact ⟨e :: front, inside, opener, owner, rfl, hrest⟩
  | @block opener closing' owner inside rest hopens howner hend howner' hinside _ ihinside ihrest =>
      cases before with
      | nil =>
          obtain ⟨rfl, -⟩ := List.cons.inj hl
          simp [hclosing, Statement.opensBlock] at hopens
      | cons e before =>
          obtain ⟨rfl, htail⟩ := List.cons.inj hl
          -- the end stands inside the block, is its end, or stands behind it
          rcases List.append_eq_append_iff.mp htail with ⟨gap, rfl, hgap⟩ | ⟨gap, rfl, hgap⟩
          · cases gap with
            | nil =>
                obtain ⟨rfl, -⟩ := List.cons.inj hgap
                exact ⟨[], inside, opener, owner, by simp, hopens, hinside.balanced, howner,
                  howner'⟩
            | cons e gap =>
                obtain ⟨rfl, hbehind⟩ := List.cons.inj hgap
                obtain ⟨front, inside', opener', owner', rfl, hrest⟩ := ihrest _ _ hbehind
                exact ⟨opener :: (inside ++ closing' :: front), inside', opener', owner',
                  by simp, hrest⟩
          · cases gap with
            | nil =>
                obtain ⟨rfl, -⟩ := List.cons.inj hgap
                exact ⟨[], before, opener, owner, rfl, hopens, by simpa using hinside.balanced,
                  howner, howner'⟩
            | cons e gap =>
                obtain ⟨rfl, hgap⟩ := List.cons.inj hgap
                obtain ⟨front, inside', opener', owner', rfl, hrest⟩ := ihinside _ _ rfl
                exact ⟨opener :: front, inside', opener', owner', rfl, hrest⟩

/-- **The two sides of a matching pair have one owner.** -/
theorem same_owner (h : Nested l) {i j : Nat} (hmatch : Matches (l.map Owned.statement) i j) :
    ∃ owner, l[i]?.map Owned.owner = some (some owner) ∧
      l[j]?.map Owned.owner = some (some owner) := by
  obtain ⟨before, inside, after, opener, hl, hi, hj, hopener, hinside⟩ := id hmatch
  obtain ⟨before, behind, rfl, rfl, hbehind⟩ := List.map_eq_append_iff.mp hl
  obtain ⟨opener, body, rfl, rfl, hbody⟩ := List.map_eq_cons_iff.mp hbehind
  obtain ⟨inside, ending, rfl, rfl, hending⟩ := List.map_eq_append_iff.mp hbody
  obtain ⟨closing, after, rfl, hclosing, rfl⟩ := List.map_eq_cons_iff.mp hending
  rw [List.length_map] at hi hj
  obtain ⟨front, inside', opener', owner, hfront, hopener', hinside', howner, howner'⟩ :=
    h.exists_opener hclosing (before ++ opener :: inside) after (by simp)
  have hlength := congrArg List.length hfront
  simp only [List.length_append, List.length_cons] at hlength
  -- the opening found and the one given match the same end
  have hfound : Matches ((before ++ opener :: (inside ++ closing :: after)).map Owned.statement)
      front.length j := by
    refine ⟨front.map Owned.statement, inside'.map Owned.statement, after.map Owned.statement,
      opener'.statement, ?_, by simp, by simp; omega, hopener', hinside'⟩
    have := congrArg (fun l => (l ++ closing :: after).map Owned.statement) hfront
    simpa [hclosing] using this
  have hplace : front.length = before.length := hi ▸ hfound.opening_unique hmatch
  obtain ⟨rfl, htail⟩ := List.append_inj hfront hplace.symm
  obtain ⟨rfl, rfl⟩ := List.cons.inj htail
  refine ⟨owner, ?_, ?_⟩
  · simp [← hi, howner]
  · have hat : (before ++ opener :: (inside ++ closing :: after))[j]? = some closing := by
      rw [show before ++ opener :: (inside ++ closing :: after)
          = (before ++ opener :: inside) ++ closing :: after by simp,
        List.getElem?_append_right (by simp; omega)]
      simp [← hj, ← hi, Nat.add_assoc, Nat.add_comm 1]
    rw [hat, Option.map_some, howner']

end Nested

/-! ## The code of a program with its owners -/

/-- Statements of one owner. -/
def Owned.all (owner : Option Nat) (l : List Statement) : List Owned :=
  l.map fun s => ⟨owner, s⟩

@[simp] lemma Owned.all_statements (owner : Option Nat) (l : List Statement) :
    (Owned.all owner l).map Owned.statement = l := by
  simp [Owned.all, Function.comp_def]

lemma Owned.mem_all {owner : Option Nat} {l : List Statement} {e : Owned}
    (h : e ∈ Owned.all owner l) : e.owner = owner ∧ e.statement ∈ l := by
  obtain ⟨s, hs, rfl⟩ := List.mem_map.mp h
  exact ⟨rfl, hs⟩

/-- What the compiler puts in front of a body is what `Program.code` has there. -/
lemma openBody_eq (front : List Statement) :
    Step.openBody front
      = front ++ (if front.any Statement.opensBlock then [] else [.beginBlock]) := by
  unfold Step.openBody
  split_ifs
  · rw [List.append_nil]
  · rfl

namespace Program

/-- How many tokens a program has. -/
def length : Program → Nat
  | done => 0
  | type _ rest => rest.length + 1
  | declare _ rest => rest.length + 1
  | assign _ _ value _ rest => value.length + rest.length + 3
  | ignored _ rest => rest.length + 1
  | block _ head _ _ body _ rest => head.length + body.length + rest.length + 3

/-- `Program.code` with the owner of each statement, where the first token of the program has the
given index.  A keyword owns what its handler made of the head, the opening of a block if that was
added behind, and the end of the block. -/
def owned (m : Modes) (index : Nat) : Program → List Owned
  | done => []
  | type word rest =>
    Owned.all none (m.typeMarker word.literal) ++
      rest.owned { m with type := word.literal } (index + 1)
  | declare name rest => Owned.all none [.declare name.literal] ++ rest.owned m (index + 1)
  | assign name _ value _ rest =>
    Owned.all none ([.declare name.literal, .load name.literal,
      .clear (if m.type = "int" ∨ m.type = "float" then "0" else "false")] ++
      m.restartMarker ++ expressionCode m.restart value) ++
      rest.owned (expressionModes m.restart value) (index + value.length + 3)
  | ignored _ rest => rest.owned m (index + 1)
  | block _ head _ front body _ rest =>
    Owned.all (some index) (Step.openBody front) ++
      (body.owned m (index + head.length + 2) ++ ⟨some index, .endBlock⟩ ::
        rest.owned (body.modes m) (index + head.length + body.length + 3))

/-- The whole listing with its owners: nothing owns the three markers. -/
def ownedListing (p : Program) : List Owned :=
  Owned.all none seedMarkers ++ p.owned ⟨"int", "+"⟩ 0

lemma owned_statements (p : Program) (m : Modes) (index : Nat) :
    (p.owned m index).map Owned.statement = p.code m := by
  induction p generalizing m index with
  | done => rfl
  | type word rest ih | declare name rest ih | ignored word rest ih => simp [owned, code, ih]
  | assign name equals value terminator rest ih => simp [owned, code, ih]
  | block word head opening front body closing rest ihbody ihrest =>
      rw [owned, code, ← openBody_eq, List.map_append, List.map_append, List.map_cons,
        Owned.all_statements, ihbody, ihrest]

lemma ownedListing_statements (p : Program) :
    p.ownedListing.map Owned.statement = seedMarkers ++ p.code ⟨"int", "+"⟩ := by
  simp [ownedListing, owned_statements]

end Program

lemma Derives.length {d : Dialect} {ts : List Token} {p : Program} (h : Derives d ts p) :
    ts.length = p.length := by
  induction h with
  | done => rfl
  | type _ _ ih | declare _ _ ih | ignored _ _ _ _ ih => simp [Program.length, ih]
  | assign _ _ _ _ _ ih => simp [Program.length, ih]; omega
  | block _ _ _ _ _ _ _ _ ihbody ihrest => simp [Program.length, ihbody, ihrest]; omega

/-- The token at a place is a keyword with a handler. -/
def KeywordAt (d : Dialect) (ts : List Token) (index : Nat) : Prop :=
  ∃ word, ts[index]? = some word ∧ word.kind = .keyword ∧ word.literal ∈ d.keywords

/-- **Owners are keywords.**  The program may stand anywhere among the tokens. -/
theorem Derives.owner_keyword {d : Dialect} {ts : List Token} {p : Program} (h : Derives d ts p)
    {m : Modes} {whole : List Token} (before after : List Token)
    (hwhole : whole = before ++ ts ++ after) {e : Owned} (he : e ∈ p.owned m before.length)
    {owner : Nat} (howner : e.owner = some owner) : KeywordAt d whole owner := by
  induction h generalizing m before after with
  | done => simp [Program.owned] at he
  | @type word ts rest _ _ ih =>
      rcases List.mem_append.mp he with he | he
      · simp [(Owned.mem_all he).1] at howner
      · exact ih (before ++ [word]) after (by simpa using hwhole) (by simpa using he)
  | @declare name ts rest _ _ ih =>
      rcases List.mem_append.mp he with he | he
      · simp [(Owned.mem_all he).1] at howner
      · exact ih (before ++ [name]) after (by simpa using hwhole) (by simpa using he)
  | @assign name equals terminator value ts rest _ _ _ _ _ ih =>
      rcases List.mem_append.mp he with he | he
      · simp [(Owned.mem_all he).1] at howner
      · exact ih (before ++ name :: equals :: (value ++ [terminator])) after
          (by simpa using hwhole) (by simpa [Nat.add_assoc] using he)
  | @ignored word ts rest _ _ _ _ ih =>
      exact ih (before ++ [word]) after (by simpa using hwhole) (by simpa [Program.owned] using he)
  | @block word opening closing head inner ts handler front body rest hk hsome _ _ _ hbody _ _
      ihbody ihrest =>
      have hhere : KeywordAt d whole before.length :=
        ⟨word, by simp [hwhole], hk, Std.TreeMap.mem_iff_isSome_getElem?.mpr (by simp [hsome])⟩
      rcases List.mem_append.mp he with he | he
      · rw [(Owned.mem_all he).1, Option.some.injEq] at howner
        exact howner ▸ hhere
      rcases List.mem_append.mp he with he | he
      · exact ihbody (before ++ word :: (head ++ [opening])) (closing :: (ts ++ after))
          (by simpa using hwhole) (by simpa [Nat.add_assoc] using he)
      rcases List.mem_cons.mp he with rfl | he
      · rw [Option.some.injEq] at howner
        exact howner ▸ hhere
      · refine ihrest (m := body.modes m)
          (before ++ word :: (head ++ opening :: (inner ++ [closing]))) after
          (by simpa using hwhole) ?_
        have hplace : (before ++ word :: (head ++ opening :: (inner ++ [closing]))).length
            = before.length + head.length + body.length + 3 := by
          simp [hbody.length]
          omega
        rwa [hplace]

/-! ## What handlers may do -/

namespace Handler

/-- What the handler puts in front of a body ends no block. -/
def EndsNothing (handler : Handler) : Prop :=
  ∀ head front, handler head = .ok front → .endBlock ∉ front

/-- What the handler puts in front of a body opens one block or none. -/
def OpensAtMostOne (handler : Handler) : Prop :=
  ∀ head front, handler head = .ok front → openings front ≤ 1

end Handler

lemma Condition.head_endsNothing : Handler.EndsNothing Condition.head := by
  intro head front h
  rcases Condition.head_cases h with ⟨a, rfl, rfl⟩ | ⟨a, c, b, rfl, rfl⟩ <;> simp

lemma Condition.head_opensAtMostOne : Handler.OpensAtMostOne Condition.head := by
  intro head front h
  rcases Condition.head_cases h with ⟨a, rfl, rfl⟩ | ⟨a, c, b, rfl, rfl⟩ <;>
    simp [openings, Statement.opensBlock]

section Front

variable {front : List Statement}

/-- A block is opened in front of every body. -/
lemma openings_openBody_pos (front : List Statement) : 1 ≤ openings (Step.openBody front) := by
  unfold Step.openBody
  split_ifs with hany
  · obtain ⟨s, hs, hopens⟩ := List.any_eq_true.mp hany
    exact List.countP_pos_iff.mpr ⟨s, hs, hopens⟩
  · rw [openings_append]
    exact Nat.le_add_left 1 _

lemma openBody_endsNothing (hends : .endBlock ∉ front) : .endBlock ∉ Step.openBody front := by
  unfold Step.openBody
  split_ifs <;> simpa

lemma straight_of_no_opening (hends : .endBlock ∉ front) (hopens : openings front = 0) :
    ∀ s ∈ front, s.isStraight := by
  intro s hs
  rcases s.straight_or_opens_or_ends with h | h | rfl
  · exact h
  · exact absurd h (List.countP_eq_zero.mp hopens s hs)
  · exact absurd hs hends

/-- Exactly one block is opened in front of a body, if the handler opens at most one. -/
lemma openBody_split (hends : .endBlock ∉ front) (hone : openings front ≤ 1) :
    ∃ (a b : List Statement) (opener : Statement), Step.openBody front = a ++ opener :: b ∧
      opener.opensBlock ∧ (∀ s ∈ a, s.isStraight) ∧ ∀ s ∈ b, s.isStraight := by
  unfold Step.openBody
  split_ifs with hany
  · obtain ⟨opener, hmem, hopener⟩ := List.any_eq_true.mp hany
    obtain ⟨a, b, rfl⟩ := List.append_of_mem hmem
    simp only [openings_append, openings_of_opens hopener] at hone
    simp only [List.mem_append, List.mem_cons, not_or] at hends
    exact ⟨a, b, opener, rfl, hopener, straight_of_no_opening hends.1 (by omega),
      straight_of_no_opening hends.2.2 (by omega)⟩
  · have hnone : openings front = 0 := List.countP_eq_zero.mpr (by simpa using hany)
    exact ⟨front, [], .beginBlock, rfl, rfl, straight_of_no_opening hends hnone, by simp⟩

end Front

/-! ## What the compiler makes of it -/

section Handlers

variable {d : Dialect} {ts : List Token} {p : Program}

/-- **No program closes more blocks than it opens**, if no handler ends a block. -/
theorem Derives.code_covered
    (hends : ∀ (word : Text) (handler : Handler), d.keywords[word]? = some handler →
      Handler.EndsNothing handler)
    (h : Derives d ts p) (m : Modes) : Covered 0 (p.code m) := by
  induction h generalizing m with
  | done => exact .of_no_end 0 (by simp [Program.code])
  | type _ _ ih =>
      exact .no_end_append
        (not_mem_of_straight fun s hs => by rw [Modes.mem_typeMarker hs]; rfl) (ih _)
  | @declare name ts rest _ _ ih =>
      exact .no_end_append (a := [.declare name.literal]) (by simp) (ih m)
  | @assign name equals terminator value ts rest _ _ _ _ _ ih =>
      refine .no_end_append (a := [.declare name.literal, .load name.literal, .clear _])
        (by simp) ?_
      refine .no_end_append
        (not_mem_of_straight fun s hs => by rw [Modes.mem_restartMarker hs]; rfl) ?_
      exact .no_end_append (not_mem_of_straight (expressionCode_straight _ _)) (ih _)
  | ignored _ _ _ _ ih => exact ih m
  | @block word opening closing head inner ts handler front body rest _ hsome _ hfront _ _ _ _
      ihbody ihrest =>
      have hnone : .endBlock ∉ Step.openBody front :=
        openBody_endsNothing (hends _ _ hsome _ _ hfront)
      -- one opening in front is enough for the end behind the body
      have hbehind : Covered 1 (.endBlock :: rest.code (body.modes m)) :=
        (Covered.close (n := 0)).append (ihrest _) (by simp)
      have hbody := (ihbody m).mono (Nat.zero_le 1)
      have hcovered := ihbody m _ (List.prefix_refl _)
      rw [Program.code, ← openBody_eq]
      refine (Covered.of_no_end 0 hnone).append (hbody.append hbehind (by omega)) ?_
      have := openings_openBody_pos front
      rw [endings_eq_zero hnone]
      omega

/-- **The code of a program is nested, with one owner for each block**, if no handler ends a block
or opens more than one. -/
theorem Derives.owned_nested
    (hends : ∀ (word : Text) (handler : Handler), d.keywords[word]? = some handler →
      Handler.EndsNothing handler)
    (hone : ∀ (word : Text) (handler : Handler), d.keywords[word]? = some handler →
      Handler.OpensAtMostOne handler)
    (h : Derives d ts p) (m : Modes) (index : Nat) : Nested (p.owned m index) := by
  have hplain {owner : Option Nat} {l : List Statement} (hl : ∀ s ∈ l, s.isStraight) :
      ∀ e ∈ Owned.all owner l, e.statement.isStraight := fun e he => hl _ (Owned.mem_all he).2
  induction h generalizing m index with
  | done => exact .nil
  | type _ _ ih =>
      exact .plains (hplain fun s hs => by rw [Modes.mem_typeMarker hs]; rfl) (ih _ _)
  | declare _ _ ih => exact .plains (hplain (by simp [Statement.isStraight])) (ih _ _)
  | assign _ _ _ _ _ ih =>
      refine .plains (hplain fun s hs => ?_) (ih _ _)
      simp only [List.append_assoc, List.mem_append] at hs
      rcases hs with hs | hs | hs
      · simp only [List.mem_cons, List.not_mem_nil, or_false] at hs
        rcases hs with rfl | rfl | rfl <;> rfl
      · rw [Modes.mem_restartMarker hs]; rfl
      · exact expressionCode_straight _ _ s hs
  | ignored _ _ _ _ ih => exact ih _ _
  | @block word opening closing head inner ts handler front body rest _ hsome _ hfront _ _ _ _
      ihbody ihrest =>
      obtain ⟨a, b, opener, hsplit, hopener, ha, hb⟩ :=
        openBody_split (hends _ _ hsome _ _ hfront) (hone _ _ hsome _ _ hfront)
      have hblock : Nested (⟨some index, opener⟩ ::
          (Owned.all (some index) b ++ body.owned m (index + head.length + 2) ++
            ⟨some index, .endBlock⟩ ::
              rest.owned (body.modes m) (index + head.length + body.length + 3))) :=
        .block hopener rfl rfl rfl (.plains (hplain hb) (ihbody _ _)) (ihrest _ _)
      have hwhole := Nested.plains (a := Owned.all (some index) a) (hplain ha) hblock
      rw [Program.owned, hsplit]
      simpa [Owned.all] using hwhole

end Handlers

/-- **Every block is opened once and closed once.**  If no handler ends a block, then no listing
closes more than it has opened, and every end matches exactly one opening in front of it.  If
moreover no handler opens more than one block, then all blocks are closed, every opening matches
exactly one end, and the two belong to one keyword: the opening is in what the keyword's handler
made of its head, or is the one added behind that.  The handler of `if` is of this kind. -/
theorem compile_blocks_matched (d : Dialect) (ts : List Token) (listing : List Statement)
    (hends : ∀ (word : Text) (handler : Handler), d.keywords[word]? = some handler →
      Handler.EndsNothing handler)
    (h : (d.compile ts).listing = .ok listing) :
    (∀ pre, pre <+: listing → endings pre ≤ openings pre) ∧
    (∀ j, listing[j]? = some .endBlock → ∃! i, Matches listing i j) ∧
    ((∀ (word : Text) (handler : Handler), d.keywords[word]? = some handler →
        Handler.OpensAtMostOne handler) →
      endings listing = openings listing ∧
      (∀ i opener, listing[i]? = some opener → opener.opensBlock → ∃! j, Matches listing i j) ∧
      ∃ p, Derives d ts p ∧ p.ownedListing.map Owned.statement = listing ∧
        ∀ i j, Matches listing i j → ∃ owner,
          p.ownedListing[i]?.map Owned.owner = some (some owner) ∧
          p.ownedListing[j]?.map Owned.owner = some (some owner) ∧ KeywordAt d ts owner) ∧
    Handler.EndsNothing Condition.head ∧ Handler.OpensAtMostOne Condition.head := by
  obtain ⟨p, hp, rfl⟩ := listing_eq_ok_iff.mp h
  have hseed : ∀ s ∈ seedMarkers, s.isStraight := by simp [seedMarkers, Statement.isStraight]
  have hcovered : Covered 0 (seedMarkers ++ p.code ⟨"int", "+"⟩) :=
    .no_end_append (not_mem_of_straight hseed) (hp.code_covered hends _)
  refine ⟨fun pre hpre => by simpa using hcovered pre hpre, fun j hj => hcovered.exists_matches hj,
    fun hone => ?_, Condition.head_endsNothing, Condition.head_opensAtMostOne⟩
  have hnested : Nested p.ownedListing :=
    .plains (fun e he => hseed _ (Owned.mem_all he).2) (hp.owned_nested hends hone _ _)
  have hbalanced : Balanced (seedMarkers ++ p.code ⟨"int", "+"⟩) :=
    p.ownedListing_statements ▸ hnested.balanced
  refine ⟨hbalanced.settled, fun i opener hi hopener => hbalanced.exists_matches hi hopener, p, hp,
    p.ownedListing_statements, fun i j hmatch => ?_⟩
  obtain ⟨owner, hi, hj⟩ := hnested.same_owner (p.ownedListing_statements ▸ hmatch)
  refine ⟨owner, hi, hj, ?_⟩
  obtain ⟨e, he, howner⟩ := Option.map_eq_some_iff.mp hi
  rcases List.mem_append.mp (List.mem_of_getElem? he) with he | he
  · simp [(Owned.mem_all he).1] at howner
  · exact hp.owner_keyword [] [] (by simp) he howner

/-- A condition inside the block of another keyword, whose handler opens none itself: the ends, in
this order, match the branch and the opening that was added. -/
theorem compile_blocks_matched_in_loop :
    let loop : Handler := fun _ => .ok [.test "n"]
    let d : Dialect := Dialect.standard.withKeyword "loop" loop
    let ts : List Token :=
      [⟨.keyword, "loop", 1, 0⟩, ⟨.openDelim, "\x7b", 1, 5⟩, ⟨.keyword, "if", 1, 7⟩,
        ⟨.number, "1", 1, 10⟩, ⟨.openDelim, "\x7b", 1, 12⟩, ⟨.identifier, "a", 1, 14⟩,
        ⟨.closeDelim, "\x7d", 1, 16⟩, ⟨.closeDelim, "\x7d", 1, 18⟩]
    let listing : List Statement :=
      [.scope "global", .type "int", .operator "+", .test "n", .beginBlock, .test "1", .branch,
        .declare "a", .endBlock, .endBlock]
    (d.compile ts).listing = .ok listing ∧ (∃! i, Matches listing i 8) ∧
      (∃! j, Matches listing 4 j) ∧ ∃ p, Derives d ts p ∧ ∀ i j, Matches listing i j →
        ∃ owner, p.ownedListing[i]?.map Owned.owner = some (some owner) ∧
          p.ownedListing[j]?.map Owned.owner = some (some owner) ∧ KeywordAt d ts owner := by
  intro loop d ts listing
  have hhandler {word : Text} {handler : Handler} (h : d.keywords[word]? = some handler) :
      handler = loop ∨ handler = Condition.head := by
    simp only [d, Dialect.withKeyword, Std.TreeMap.getElem?_insert] at h
    split_ifs at h
    · exact .inl (Option.some.inj h).symm
    · exact .inr (Keywords.standard_handler h)
  have hends (word : Text) (handler : Handler) (h : d.keywords[word]? = some handler) :
      Handler.EndsNothing handler := by
    rcases hhandler h with rfl | rfl
    · intro head front hfront
      simp [← Except.ok.inj hfront]
    · exact Condition.head_endsNothing
  have hone (word : Text) (handler : Handler) (h : d.keywords[word]? = some handler) :
      Handler.OpensAtMostOne handler := by
    rcases hhandler h with rfl | rfl
    · intro head front hfront
      simp [← Except.ok.inj hfront, openings, Statement.opensBlock]
    · exact Condition.head_opensAtMostOne
  have hlisting : (d.compile ts).listing = .ok listing := by decide +kernel
  obtain ⟨-, hmatches, hmore, -⟩ := compile_blocks_matched d ts listing hends hlisting
  obtain ⟨-, hopenings, p, hp, -, howners⟩ := hmore hone
  exact ⟨hlisting, hmatches 8 rfl, hopenings 4 .beginBlock rfl rfl, p, hp, howners⟩

end Scriptlet
