import Mathlib
import Scriptlet.Proofs.Balance

/-!
# A branch finds the end of its block

A branch that is not taken passes over statements up to the end of its block.  It finds that end by
counting: one up for every opening, one down for every end.  The listing may be anything, with gaps,
ends that close nothing and blocks that are never closed, in front of the branch as well as behind.

**What the end is.**  `Bracketed` are the words of matching brackets, by their grammar, and
`ClosesAt slots pc i` says that the slot at `i` is an end and that such a word stands between `pc`
and it.  No counting is involved; that counting comes to the same is `bracketed_iff_balanced`.

**The search.**  It passes over a word of matching brackets at any depth
(`blockLength?_bracketed`), and where it succeeds there is such a word and an end behind it
(`exists_bracketed`).  The second is by induction on the length of the listing: behind an opening
the search succeeds twice, for the block that starts there and for what comes behind that block.

* **`branch_finds_matching_end`** — the search finds the end of the block, of which there is at most
  one, or fails if there is none, and a run goes on accordingly.
-/

namespace Scriptlet

/-! ## Words of matching brackets -/

/-- **The words of matching brackets** among slots.  A gap is no bracket. -/
inductive Bracketed : List (Option Statement) → Prop where
  | nil : Bracketed []
  | gap {rest : List (Option Statement)} : Bracketed rest → Bracketed (none :: rest)
  | plain {s : Statement} {rest : List (Option Statement)} : s.isStraight → Bracketed rest →
      Bracketed (some s :: rest)
  | block {s : Statement} {inside rest : List (Option Statement)} : s.opensBlock →
      Bracketed inside → Bracketed rest →
      Bracketed (some s :: (inside ++ some .endBlock :: rest))

namespace Balanced

variable {s : Statement} {a b : List Statement}

/-- What stands behind a statement without a bracket is balanced by itself, -/
lemma of_plain (hs : s.isStraight) (h : Balanced (s :: a)) : Balanced a where
  covered := by
    intro pre hpre
    have hcovered := h.covered (s :: pre) (List.cons_prefix_cons.mpr ⟨rfl, hpre⟩)
    rwa [endings_of_straight hs, openings_of_straight hs] at hcovered
  settled := by
    have hsettled := h.settled
    rwa [endings_of_straight hs, openings_of_straight hs] at hsettled

/-- and so is what stands behind a block. -/
lemma of_block (hs : s.opensBlock) (ha : Balanced a) (h : Balanced (s :: (a ++ .endBlock :: b))) :
    Balanced b where
  covered := by
    intro pre hpre
    have hfront : s :: (a ++ .endBlock :: pre) <+: s :: (a ++ .endBlock :: b) := by
      obtain ⟨rest, rfl⟩ := hpre
      exact ⟨rest, by simp⟩
    have hcovered := h.covered _ hfront
    simp only [endings_of_opens hs, openings_of_opens hs, endings_append, openings_append,
      endings_end, openings_end, ha.settled] at hcovered
    omega
  settled := by
    have hsettled := h.settled
    simp only [endings_of_opens hs, openings_of_opens hs, endings_append, openings_append,
      endings_end, openings_end, ha.settled] at hsettled
    omega

lemma not_endBlock : ¬ Balanced (.endBlock :: a) := by
  intro h
  have hcovered := h.covered [.endBlock] ⟨a, rfl⟩
  simp at hcovered

end Balanced

lemma Bracketed.balanced {slots : List (Option Statement)} (h : Bracketed slots) :
    Balanced slots.reduceOption := by
  induction h with
  | nil => exact .nil
  | gap _ ih => simpa using ih
  | plain hs _ ih => simpa using Balanced.plain hs ih
  | block hs _ _ ihinside ihrest =>
      simpa [List.reduceOption_append] using Balanced.block hs ihinside ihrest

/-- Where a statement stands among those of some slots, it stands among the slots. -/
lemma exists_slot {slots : List (Option Statement)} {s : Statement} {a b : List Statement}
    (h : slots.reduceOption = a ++ s :: b) :
    ∃ front back, slots = front ++ some s :: back ∧ front.reduceOption = a ∧
      back.reduceOption = b := by
  induction slots generalizing a with
  | nil => simp at h
  | cons slot slots ih =>
      cases slot with
      | none =>
          obtain ⟨front, back, rfl, hfront, hback⟩ := ih (by simpa using h)
          exact ⟨none :: front, back, rfl, by simpa using hfront, hback⟩
      | some u =>
          rw [List.reduceOption_cons_of_some] at h
          cases a with
          | nil =>
              obtain ⟨rfl, hback⟩ := List.cons.inj h
              exact ⟨[], slots, rfl, rfl, hback⟩
          | cons v a =>
              obtain ⟨rfl, htail⟩ := List.cons.inj h
              obtain ⟨front, back, rfl, hfront, hback⟩ := ih htail
              exact ⟨some u :: front, back, rfl, by simp [hfront], hback⟩

/-- **The grammar of matching brackets and the counting of brackets agree**, gaps left out. -/
theorem bracketed_iff_balanced {slots : List (Option Statement)} :
    Bracketed slots ↔ Balanced slots.reduceOption := by
  refine ⟨Bracketed.balanced, fun h => ?_⟩
  induction hn : slots.length using Nat.strong_induction_on generalizing slots with
  | _ n ih =>
    cases slots with
    | nil => exact .nil
    | cons slot slots =>
      rw [List.length_cons] at hn
      cases slot with
      | none => exact .gap (ih slots.length (by omega) (by simpa using h) rfl)
      | some s =>
        rw [List.reduceOption_cons_of_some] at h
        rcases s.straight_or_opens_or_ends with hs | hs | rfl
        · exact .plain hs (ih slots.length (by omega) (h.of_plain hs) rfl)
        · -- more is closed than opened behind the opening, so its block ends there
          have hsettled := h.settled
          rw [endings_of_opens hs, openings_of_opens hs] at hsettled
          obtain ⟨inside, after, hslots, hinside⟩ :=
            exists_ending (l := slots.reduceOption) (by omega)
          rw [hslots] at h
          obtain ⟨front, back, rfl, rfl, rfl⟩ := exists_slot hslots
          rw [List.length_append, List.length_cons] at hn
          exact .block hs (ih front.length (by omega) hinside rfl)
            (ih back.length (by omega) (.of_block hs hinside h) rfl)
        · exact absurd h Balanced.not_endBlock

/-! ## The search for the end -/

namespace Machine

/-- **The search passes over a word of matching brackets**, however deep it is. -/
theorem blockLength?_bracketed {inside : List (Option Statement)} (h : Bracketed inside)
    (depth : Nat) (rest : List (Option Statement)) :
    blockLength? depth (inside ++ rest)
      = (blockLength? depth rest).map (inside.length + ·) := by
  induction h generalizing depth rest with
  | nil => simp
  | gap _ ih =>
      rw [List.cons_append, blockLength?, ih, Option.map_map]
      congr 1
      funext n
      simp only [Function.comp_apply, List.length_cons]
      omega
  | plain hs _ ih =>
      rw [List.cons_append, blockLength?_straight hs, ih, Option.map_map]
      congr 1
      funext n
      simp only [Function.comp_apply, List.length_cons]
      omega
  | block hs _ _ ihinside ihrest =>
      rw [List.cons_append, List.append_assoc, List.cons_append, blockLength?_opens hs, ihinside,
        blockLength?_end, ihrest]
      simp only [Option.map_map]
      congr 1
      funext n
      simp only [Function.comp_apply, List.length_cons, List.length_append]
      omega

/-- **Where the search succeeds**, a word of matching brackets and an end behind it are at the
front. -/
theorem exists_bracketed {slots : List (Option Statement)} {depth : Nat}
    (h : (blockLength? depth slots).isSome) :
    ∃ inside after, slots = inside ++ some .endBlock :: after ∧ Bracketed inside := by
  induction hn : slots.length using Nat.strong_induction_on generalizing slots depth with
  | _ n ih =>
    cases slots with
    | nil => simp [blockLength?] at h
    | cons slot slots =>
      rw [List.length_cons] at hn
      cases slot with
      | none =>
          rw [blockLength?, Option.isSome_map] at h
          obtain ⟨inside, after, rfl, hinside⟩ := ih slots.length (by omega) h rfl
          exact ⟨none :: inside, after, rfl, .gap hinside⟩
      | some s =>
        rcases s.straight_or_opens_or_ends with hs | hs | rfl
        · rw [blockLength?_straight hs, Option.isSome_map] at h
          obtain ⟨inside, after, rfl, hinside⟩ := ih slots.length (by omega) h rfl
          exact ⟨some s :: inside, after, rfl, .plain hs hinside⟩
        · -- the search goes one deeper up to the end of this block, and then on behind it
          rw [blockLength?_opens hs, Option.isSome_map] at h
          obtain ⟨body, rest, rfl, hbody⟩ := ih slots.length (by omega) h rfl
          rw [blockLength?_bracketed hbody, blockLength?_end, Option.isSome_map,
            Option.isSome_map] at h
          rw [List.length_append, List.length_cons] at hn
          obtain ⟨inside, after, rfl, hinside⟩ := ih rest.length (by omega) h rfl
          exact ⟨some s :: (body ++ some .endBlock :: inside), after, by simp,
            .block hs hbody hinside⟩
        · exact ⟨[], slots, rfl, .nil⟩

/-- The length of a block without its opening: that of a word of matching brackets, and the end. -/
lemma blockLength?_eq_some_iff {slots : List (Option Statement)} {n : Nat} :
    blockLength? 0 slots = some n ↔
      ∃ inside after, slots = inside ++ some .endBlock :: after ∧ Bracketed inside ∧
        n = inside.length + 1 := by
  constructor
  · intro h
    have hsome : (blockLength? 0 slots).isSome := by rw [h]; rfl
    obtain ⟨inside, after, rfl, hinside⟩ := exists_bracketed hsome
    rw [blockLength?_bracketed hinside, blockLength?, Option.map_some, Option.some.injEq] at h
    exact ⟨inside, after, rfl, hinside, h.symm⟩
  · rintro ⟨inside, after, rfl, hinside, rfl⟩
    rw [blockLength?_bracketed hinside, blockLength?, Option.map_some]

/-- Where a branch at `pc` leads to if it is not taken: the index of the end of its block. -/
def blockEnd (slots : List (Option Statement)) (pc : Nat) : Except Fault Nat :=
  match blockLength? 0 (slots.drop (pc + 1)) with
  | some n => .ok (pc + n)
  | none => .error .unbalancedBlock

end Machine

/-! ## The end of a block -/

/-- **The block that is open behind `pc` is closed at `i`**: there is an end at `i`, and the brackets
between the two match. -/
structure ClosesAt (slots : List (Option Statement)) (pc i : Nat) : Prop where
  later : pc < i
  closing : slots[i]? = some (some .endBlock)
  between : Bracketed ((slots.take i).drop (pc + 1))

namespace ClosesAt

variable {slots : List (Option Statement)} {pc i : Nat}

/-- The slots behind `pc` up to the end and behind it. -/
lemma drop_eq (h : ClosesAt slots pc i) :
    slots.drop (pc + 1)
      = (slots.take i).drop (pc + 1) ++ some .endBlock :: slots.drop (i + 1) := by
  obtain ⟨hi, hclosing⟩ := List.getElem?_eq_some_iff.mp h.closing
  have hlater := h.later
  have hsplit : slots = slots.take i ++ some .endBlock :: slots.drop (i + 1) := by
    rw [← hclosing, List.getElem_cons_drop, List.take_append_drop]
  have hdrop := congrArg (List.drop (pc + 1)) hsplit
  rwa [List.drop_append_of_le_length (by rw [List.length_take]; omega)] at hdrop

lemma of_drop_eq {inside after : List (Option Statement)}
    (h : slots.drop (pc + 1) = inside ++ some .endBlock :: after) (hinside : Bracketed inside) :
    ClosesAt slots pc (pc + 1 + inside.length) where
  later := by omega
  closing := by
    rw [← List.getElem?_drop, h, List.getElem?_append_right (le_refl _), Nat.sub_self]
    rfl
  between := by
    rw [List.drop_take, h, Nat.add_sub_cancel_left, List.take_left]
    exact hinside

end ClosesAt

/-- What the search finds is where the block is closed. -/
lemma Machine.blockEnd_eq_ok_iff {slots : List (Option Statement)} {pc i : Nat} :
    blockEnd slots pc = .ok i ↔ ClosesAt slots pc i := by
  constructor
  · intro h
    unfold blockEnd at h
    split at h
    · next n hn =>
        obtain ⟨inside, after, hslots, hinside, rfl⟩ := blockLength?_eq_some_iff.mp hn
        have hcloses := ClosesAt.of_drop_eq hslots hinside
        rwa [← Except.ok.inj h, Nat.add_comm inside.length 1, ← Nat.add_assoc]
    · simp at h
  · intro h
    have hlater := h.later
    obtain ⟨hi, -⟩ := List.getElem?_eq_some_iff.mp h.closing
    have hn := blockLength?_eq_some_iff.mpr ⟨_, _, h.drop_eq, h.between, rfl⟩
    simp only [blockEnd, hn, List.length_drop, List.length_take]
    congr 1
    omega

/-- A branch that is not taken goes on behind the end that it finds, or stops the run. -/
lemma Machine.runFrom_branch {m after : Machine} {slots : List (Option Statement)} {pc : Nat}
    {slot : Option Statement} (hslot : slots[pc]? = some slot)
    (hskip : m.executeSlot slot = .skip after) :
    m.runFrom pc 0 (slots.drop pc) =
      match blockEnd slots pc with
      | .ok i => after.runFrom (i + 1) 0 (slots.drop (i + 1))
      | .error fault => ⟨after, some ⟨pc, slot, fault⟩⟩ := by
  obtain ⟨hlt, rfl⟩ := List.getElem?_eq_some_iff.mp hslot
  rw [← List.cons_getElem_drop_succ (h := hlt), runFrom, hskip]
  unfold blockEnd
  cases blockLength? 0 (slots.drop (pc + 1)) with
  | none => rfl
  | some n =>
      dsimp only
      rw [← walkFrom_run, walkFrom_skip, walkFrom_run, List.drop_drop, Nat.add_right_comm]

/-- **A branch finds the matching end.**  In any listing, balanced or not and with gaps, and from
any place in it, the search for the end of a block gives the index `i` exactly if there is an end at
`i` and the brackets in between match.  There is at most one such index, and if there is none, the
search fails.  A run goes on behind the end that was found, or stops with the failure. -/
theorem branch_finds_matching_end (slots : List (Option Statement)) (pc : Nat) :
    (∀ i, Machine.blockEnd slots pc = .ok i ↔ ClosesAt slots pc i) ∧
    (∀ i j, ClosesAt slots pc i → ClosesAt slots pc j → i = j) ∧
    (Machine.blockEnd slots pc = .error .unbalancedBlock ↔ ∀ i, ¬ ClosesAt slots pc i) ∧
    (∀ inside, Bracketed inside ↔ Balanced inside.reduceOption) ∧
    ∀ (m after : Machine) (slot : Option Statement), slots[pc]? = some slot →
      m.executeSlot slot = .skip after →
      m.runFrom pc 0 (slots.drop pc) =
        match Machine.blockEnd slots pc with
        | .ok i => after.runFrom (i + 1) 0 (slots.drop (i + 1))
        | .error fault => ⟨after, some ⟨pc, slot, fault⟩⟩ := by
  refine ⟨fun i => Machine.blockEnd_eq_ok_iff, fun i j hi hj => ?_, ?_,
    fun inside => bracketed_iff_balanced, fun m after slot => Machine.runFrom_branch⟩
  · have hfound := Machine.blockEnd_eq_ok_iff.mpr hi
    rw [Machine.blockEnd_eq_ok_iff.mpr hj] at hfound
    exact (Except.ok.inj hfound).symm
  · constructor
    · intro hnone i hi
      rw [Machine.blockEnd_eq_ok_iff.mpr hi] at hnone
      simp at hnone
    · intro hnone
      cases hend : Machine.blockEnd slots pc with
      | ok i => exact absurd (Machine.blockEnd_eq_ok_iff.mp hend) (hnone i)
      | error fault =>
          unfold Machine.blockEnd at hend
          split at hend
          · simp at hend
          · exact hend.symm

/-- An end in front of the branch, a block and a gap inside its own, and behind that an end that
closes nothing and a block that is never closed. -/
theorem branch_finds_matching_end_stray :
    let slots : List (Option Statement) :=
      [some .endBlock, some .branch, none, some .beginBlock, some (.push "1"), some .endBlock,
        some .endBlock, some .endBlock, some .branch, some .beginBlock, some .endBlock]
    let m : Machine := { Machine.new with conditions := [.bool false] }
    Machine.blockEnd slots 1 = .ok 6 ∧ (∀ i, ClosesAt slots 1 i → i = 6) ∧
    (∀ i, ¬ ClosesAt slots 8 i) ∧
    m.runFrom 1 0 (slots.drop 1) = Machine.new.runFrom 7 0 (slots.drop 7) ∧
    m.runFrom 8 0 (slots.drop 8) = ⟨Machine.new, some ⟨8, some .branch, .unbalancedBlock⟩⟩ := by
  intro slots m
  have hfirst : Machine.blockEnd slots 1 = .ok 6 := by decide
  have hsecond : Machine.blockEnd slots 8 = .error .unbalancedBlock := by decide
  obtain ⟨hfound, hunique, -, -, hrun⟩ := branch_finds_matching_end slots 1
  obtain ⟨-, -, hnone, -, hstop⟩ := branch_finds_matching_end slots 8
  refine ⟨hfirst, fun i hi => hunique i 6 hi ((hfound 6).mp hfirst), hnone.mp hsecond, ?_, ?_⟩
  · rw [hrun m Machine.new (some .branch) rfl rfl, hfirst]
  · rw [hstop m Machine.new (some .branch) rfl rfl, hsecond]

end Scriptlet
