import Mathlib
import Scriptlet.Proofs.Execution

/-!
# Runs of the parts of a listing

A branch looks ahead for the end of its block, so what a run does at a statement can depend on what
stands behind it.  Here is how far that goes, for listings of any kind, with gaps and with blocks
that are never closed.

**How far a branch looks.**  The search for the end of a block ends at that end, so only the
statements up to it matter (`blockLength?_congr`).  A search that succeeds is not changed by
statements put behind the listing, nor by cutting the listing anywhere behind the end that it found.

**Joining listings.**  `runFrom_append`: if the run of the first part does not fail for want of an
end, the run of both parts is the run of the first and then that of the second.

**Cutting a listing where its run fails.**  `runFrom_error_cut`: no branch that was taken before
leads past the statement that fails, so the listing in front of it runs to its end.  What the
failing statement has done by then is said by `executeSlot_stop_machine`: it may have taken
conditions, and has done nothing else.

* **`runSlots_append`** — runs compose over concatenation.
* **`runSlots_error_cut`** — a run that fails leaves the machine that the listing in front of the
  failing statement leaves, less the conditions that the statement takes.
-/

namespace Scriptlet

namespace Machine

/-! ## How far a branch looks -/

/-- A slot ends the search for the end of a block, or the search goes on behind it; which of the two
does not depend on the slots behind it. -/
lemma blockLength?_cons (depth : Nat) (slot : Option Statement) :
    (∀ rest, blockLength? depth (slot :: rest) = some 1) ∨
      ∃ depth', ∀ rest,
        blockLength? depth (slot :: rest) = (blockLength? depth' rest).map (· + 1) := by
  cases slot with
  | none => exact .inr ⟨depth, fun rest => rfl⟩
  | some s =>
      by_cases hs : s = .endBlock
      · subst hs
        cases depth with
        | zero => exact .inl fun rest => rfl
        | succ depth => exact .inr ⟨depth, fun rest => rfl⟩
      · refine .inr ⟨if s.opensBlock then depth + 1 else depth, ?_⟩
        intro rest
        cases s <;> simp_all [blockLength?, Statement.opensBlock]

/-- The end of a block lies inside the listing. -/
lemma blockLength?_le {depth n : Nat} {slots : List (Option Statement)}
    (h : blockLength? depth slots = some n) : n ≤ slots.length := by
  induction slots generalizing depth n with
  | nil => simp [blockLength?] at h
  | cons slot rest ih =>
      rw [List.length_cons]
      rcases blockLength?_cons depth slot with hone | ⟨depth', hmore⟩
      · rw [hone, Option.some.injEq] at h
        omega
      · rw [hmore] at h
        obtain ⟨k, hk, rfl⟩ := Option.map_eq_some_iff.mp h
        have := ih hk
        omega

/-- **Only the slots up to the end of a block matter to the search for it.** -/
lemma blockLength?_congr {depth n : Nat} {slots slots' : List (Option Statement)}
    (h : blockLength? depth slots = some n) (heq : slots'.take n = slots.take n) :
    blockLength? depth slots' = some n := by
  induction slots generalizing depth n slots' with
  | nil => simp [blockLength?] at h
  | cons slot rest ih =>
      rcases blockLength?_cons depth slot with hone | ⟨depth', hmore⟩
      · rw [hone, Option.some.injEq] at h
        subst h
        cases slots' with
        | nil => simp at heq
        | cons slot' rest' =>
            obtain rfl : slot' = slot := by simpa using heq
            exact hone rest'
      · rw [hmore] at h
        obtain ⟨k, hk, rfl⟩ := Option.map_eq_some_iff.mp h
        cases slots' with
        | nil => simp at heq
        | cons slot' rest' =>
            obtain ⟨rfl, hrest⟩ : slot' = slot ∧ rest'.take k = rest.take k := by simpa using heq
            rw [hmore, ih hk hrest, Option.map_some]

lemma blockLength?_append {depth n : Nat} {a : List (Option Statement)}
    (h : blockLength? depth a = some n) (b : List (Option Statement)) :
    blockLength? depth (a ++ b) = some n :=
  blockLength?_congr h (List.take_append_of_le_length (blockLength?_le h))

lemma blockLength?_take {depth n k : Nat} {slots : List (Option Statement)}
    (h : blockLength? depth slots = some n) (hk : n ≤ k) :
    blockLength? depth (slots.take k) = some n :=
  blockLength?_congr h (by rw [List.take_take, Nat.min_eq_left hk])

/-! ## Joining listings -/

namespace Run

/-- The run of a listing that stands behind `n` statements: an error lies that much further on. -/
def behind (r : Run) (n : Nat) : Run :=
  { r with error := r.error.map fun e => { e with index := n + e.index } }

/-- Goes on where a run ended, unless it ended in an error. -/
def andThen (r : Run) (next : Machine → Run) : Run :=
  match r.error with
  | none => next r.machine
  | some _ => r

end Run

/-- Where a listing stands changes the indices of errors and nothing else. -/
lemma runFrom_behind (m : Machine) (n index skip : Nat) (slots : List (Option Statement)) :
    m.runFrom (n + index) skip slots = (m.runFrom index skip slots).behind n := by
  induction slots generalizing m index skip with
  | nil => rfl
  | cons slot rest ih =>
      cases skip with
      | succ skip => exact ih m (index + 1) skip
      | zero =>
          simp only [runFrom, Nat.add_assoc]
          cases m.executeSlot slot with
          | next after => exact ih after (index + 1) 0
          | skip after =>
              cases blockLength? 0 rest with
              | some k => exact ih after (index + 1) k
              | none => rfl
          | stop after fault => rfl

/-- **The run of two listings in a row**, if the first does not lack the end of a block that is
passed over.  What is passed over at the front lies in the first. -/
theorem runFrom_append {m : Machine} {index skip : Nat} {a b : List (Option Statement)}
    (hskip : skip ≤ a.length)
    (h : ∀ e, (m.runFrom index skip a).error = some e → e.fault ≠ .unbalancedBlock) :
    m.runFrom index skip (a ++ b)
      = (m.runFrom index skip a).andThen (·.runFrom (index + a.length) 0 b) := by
  induction a generalizing m index skip with
  | nil =>
      obtain rfl : skip = 0 := Nat.le_zero.mp hskip
      rfl
  | cons slot a ih =>
      have hlater {after : Machine} {n : Nat} (hn : n ≤ a.length)
          (h : ∀ e, (after.runFrom (index + 1) n a).error = some e → e.fault ≠ .unbalancedBlock) :
          after.runFrom (index + 1) n (a ++ b) = (after.runFrom (index + 1) n a).andThen
            (·.runFrom (index + (slot :: a).length) 0 b) := by
        have hindex : index + (slot :: a).length = index + 1 + a.length := by
          rw [List.length_cons]
          omega
        rw [hindex]
        exact ih hn h
      cases skip with
      | succ skip => exact hlater (Nat.le_of_succ_le_succ hskip) h
      | zero =>
          simp only [List.cons_append, runFrom] at h ⊢
          cases hslot : m.executeSlot slot with
          | next after =>
              simp only [hslot] at h ⊢
              exact hlater (Nat.zero_le _) h
          | skip after =>
              simp only [hslot] at h ⊢
              cases hn : blockLength? 0 a with
              | none =>
                  -- the end is searched for in the second listing, which the hypothesis excludes
                  simp only [hn] at h
                  exact absurd rfl (h _ rfl)
              | some n =>
                  -- the end that was found may be the last statement of the first listing
                  simp only [hn] at h
                  simp only [blockLength?_append hn b]
                  exact hlater (blockLength?_le hn) h
          | stop after fault => rfl

/-- **Runs compose over concatenation**, whatever the listings open and close.  If the first one
runs to its end, the second goes on from the machine that it left, and an error in it is found
further on by the length of the first.  If the first one fails, and not for want of the end of a
block, nothing behind it matters. -/
theorem runSlots_append (m : Machine) (a b : List (Option Statement)) :
    ((m.runSlots a).error = none →
      m.runSlots (a ++ b) = ((m.runSlots a).machine.runSlots b).behind a.length) ∧
    ∀ e, (m.runSlots a).error = some e → e.fault ≠ .unbalancedBlock →
      m.runSlots (a ++ b) = m.runSlots a := by
  have hjoin (h : ∀ e, (m.runSlots a).error = some e → e.fault ≠ .unbalancedBlock) :
      m.runSlots (a ++ b) = (m.runSlots a).andThen (·.runFrom (0 + a.length) 0 b) :=
    runFrom_append (Nat.zero_le _) h
  constructor
  · intro hnone
    rw [hjoin (by simp [hnone]), Run.andThen, hnone]
    rw [Nat.zero_add, ← Nat.add_zero a.length]
    exact runFrom_behind _ a.length 0 0 b
  · intro e he hfault
    have hall : ∀ e', (m.runSlots a).error = some e' → e'.fault ≠ .unbalancedBlock := by
      intro e' he'
      rw [he, Option.some.injEq] at he'
      exact he' ▸ hfault
    rw [hjoin hall, Run.andThen, he]

/-- A branch leads over a gap to the last statement of the first listing, and the second one fails.
The other way round, the error ends the run. -/
theorem runSlots_append_branch_to_last :
    let a : List (Option Statement) := [some (.test "0"), some .branch, none, some .endBlock]
    let b : List (Option Statement) := [some .endBlock, some (.load "x"), none]
    (new.runSlots a).error = none ∧
    new.runSlots (a ++ b) = ((new.runSlots a).machine.runSlots b).behind 4 ∧
    (new.runSlots (a ++ b)).error = some ⟨5, some (.load "x"), .undefinedVariable "x"⟩ ∧
    new.runSlots (b ++ a) = new.runSlots b := by
  intro a b
  have ha : (new.runSlots a).error = none := by decide +kernel
  have hb : (new.runSlots b).error = some ⟨1, some (.load "x"), .undefinedVariable "x"⟩ := by
    decide +kernel
  exact ⟨ha, (runSlots_append new a b).1 ha, by decide +kernel,
    (runSlots_append new b a).2 _ hb (by simp)⟩

end Machine

/-! ## Cutting a listing where its run fails -/

/-- How many conditions a slot takes from the stack. -/
def Statement.conditionsTaken : Option Statement → Nat
  | some (compare _) => 2
  | some branch => 1
  | _ => 0

namespace Machine

/-- The machine without the conditions that a slot takes, and otherwise unchanged. -/
def withoutConditions (m : Machine) (slot : Option Statement) : Machine :=
  { m with conditions := m.conditions.drop (Statement.conditionsTaken slot) }

lemma update_stop_machine {m after : Machine} {f : Value → Except Fault Value} {fault : Fault}
    (h : m.update f = .stop after fault) : after = m := by
  unfold update at h
  split at h
  · exact (Effect.stop.inj h).1.symm
  · split at h
    · simp at h
    · exact (Effect.stop.inj h).1.symm

/-- **A statement that stops the machine has taken its conditions and done nothing else.** -/
lemma executeSlot_stop_machine {m after : Machine} {slot : Option Statement} {fault : Fault}
    (h : m.executeSlot slot = .stop after fault) : after = m.withoutConditions slot := by
  cases slot with
  | none => exact (Effect.stop.inj h).1.symm
  | some s =>
      simp only [executeSlot] at h
      cases s with
      | clear _ | push _ | get _ => exact update_stop_machine h
      | compare op =>
          simp only [execute, compareTop] at h
          split at h
          · next right left rest hconditions =>
              split at h
              · simp at h
              · rw [← (Effect.stop.inj h).1, withoutConditions, hconditions]
                rfl
          · next hfew =>
              -- with fewer than two conditions there are none left
              have hlength : m.conditions.length ≤ 2 := by
                rcases hc : m.conditions with _ | ⟨right, _ | ⟨left, rest⟩⟩
                · simp
                · simp
                · exact absurd hc (hfew right left rest)
              rw [← (Effect.stop.inj h).1, withoutConditions, Statement.conditionsTaken,
                List.drop_eq_nil_of_le hlength]
      | branch =>
          simp only [execute, branchTop] at h
          split at h
          · next hempty =>
              have hdrop : m.conditions.drop 1 = m.conditions := by rw [hempty, List.drop_nil]
              rw [← (Effect.stop.inj h).1, withoutConditions, Statement.conditionsTaken, hdrop]
          · split_ifs at h
      | type _ | declare _ | load _ | test _ =>
          simp only [execute] at h
          split at h
          · simp at h
          · exact (Effect.stop.inj h).1.symm
      | _ => simp [execute] at h

/-- A branch that passes over its block has taken its condition and done nothing else. -/
lemma executeSlot_skip_machine {m after : Machine} {slot : Option Statement}
    (h : m.executeSlot slot = .skip after) : after = m.withoutConditions slot := by
  cases slot with
  | none => simp [executeSlot] at h
  | some s =>
      simp only [executeSlot] at h
      by_cases hs : s.isStraight
      · exact absurd h (execute_ne_skip hs)
      · cases s with
        | branch =>
            simp only [execute, branchTop] at h
            split at h
            · simp at h
            · next c rest hconditions =>
                split_ifs at h
                rw [← Effect.skip.inj h, withoutConditions, hconditions]
                rfl
        | beginBlock => simp [execute] at h
        | endBlock => simp [execute] at h
        | _ => simp [Statement.isStraight] at hs

/-- **A run that fails has run the listing in front of the failing statement to its end**, and all
that it passed over at the front stands there too. -/
theorem runFrom_error_cut {m : Machine} {index skip : Nat} {slots : List (Option Statement)}
    {e : RuntimeError} (h : (m.runFrom index skip slots).error = some e) :
    ∃ (k : Nat) (cut : Machine), e.index = index + k ∧ skip ≤ k ∧ slots[k]? = some e.statement ∧
      m.runFrom index skip (slots.take k) = ⟨cut, none⟩ ∧
      (m.runFrom index skip slots).machine = cut.withoutConditions e.statement := by
  induction slots generalizing m index skip with
  | nil => simp [runFrom] at h
  | cons slot rest ih =>
      cases skip with
      | succ skip =>
          obtain ⟨k, cut, hindex, hle, hk, hrun, hmachine⟩ := ih h
          exact ⟨k + 1, cut, by omega, by omega, hk, hrun, hmachine⟩
      | zero =>
          simp only [runFrom] at h ⊢
          cases hslot : m.executeSlot slot with
          | next after =>
              simp only [hslot] at h ⊢
              obtain ⟨k, cut, hindex, -, hk, hrun, hmachine⟩ := ih h
              refine ⟨k + 1, cut, by omega, Nat.zero_le _, hk, ?_, hmachine⟩
              simpa only [List.take_succ_cons, runFrom, hslot] using hrun
          | skip after =>
              simp only [hslot] at h ⊢
              cases hn : blockLength? 0 rest with
              | some n =>
                  simp only [hn] at h ⊢
                  -- the run fails behind the block, so the cut listing still has the end of it
                  obtain ⟨k, cut, hindex, hle, hk, hrun, hmachine⟩ := ih h
                  refine ⟨k + 1, cut, by omega, Nat.zero_le _, hk, ?_, hmachine⟩
                  simpa only [List.take_succ_cons, runFrom, hslot, blockLength?_take hn hle]
                    using hrun
              | none =>
                  simp only [hn, Option.some.injEq] at h ⊢
                  subst h
                  exact ⟨0, m, rfl, Nat.le_refl 0, rfl, rfl, executeSlot_skip_machine hslot⟩
          | stop after fault =>
              simp only [hslot, Option.some.injEq] at h ⊢
              subst h
              exact ⟨0, m, rfl, Nat.le_refl 0, rfl, rfl, executeSlot_stop_machine hslot⟩

/-- **A failing run stops cleanly at its failing statement.**  The listing in front of that statement
runs to its end from the same machine, and the failing run leaves the machine that this run leaves:
all scopes and variables, the scope in force, the type, the operator and the targets are the same,
and so are the conditions, except that a comparison has lost the two topmost and a branch the
topmost, as far as there were any. -/
theorem runSlots_error_cut (m : Machine) (slots : List (Option Statement)) (e : RuntimeError)
    (h : (m.runSlots slots).error = some e) :
    slots[e.index]? = some e.statement ∧
    ∃ cut : Machine, m.runSlots (slots.take e.index) = ⟨cut, none⟩ ∧
      (m.runSlots slots).machine =
        { cut with conditions := cut.conditions.drop (Statement.conditionsTaken e.statement) } := by
  obtain ⟨k, cut, hindex, -, hk, hrun, hmachine⟩ := runFrom_error_cut h
  obtain rfl : k = e.index := by omega
  exact ⟨hk, cut, hrun, hmachine⟩

/-- A comparison that fails behind a block that was passed over: both of its conditions are gone,
and the third is there. -/
theorem runSlots_error_cut_comparison :
    let slots : List (Option Statement) :=
      [some (.declare "x"), some (.test "0"), some .branch, some (.load "y"), some .endBlock,
        some (.test "7"), some (.test "1"), some (.test "true"), some (.compare "<"),
        some (.load "z")]
    (new.runSlots slots).error = some ⟨8, some (.compare "<"), .cannotCompare "int" "bool"⟩ ∧
    (∃ cut : Machine, new.runSlots (slots.take 8) = ⟨cut, none⟩ ∧
      (new.runSlots slots).machine = { cut with conditions := cut.conditions.drop 2 }) ∧
    (new.runSlots (slots.take 8)).machine.conditions = [.bool true, .int 1, .int 7] ∧
    (new.runSlots slots).machine.conditions = [.int 7] := by
  intro slots
  have herror : (new.runSlots slots).error
      = some ⟨8, some (.compare "<"), .cannotCompare "int" "bool"⟩ := by decide +kernel
  obtain ⟨-, hcut⟩ := runSlots_error_cut new slots _ herror
  exact ⟨herror, hcut, by decide +kernel, by decide +kernel⟩

end Machine

end Scriptlet
