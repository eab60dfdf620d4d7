import Mathlib
import Scriptlet.Machine.Basic

/-!
# Runs of listings, statement by statement

`Machine.run` says how a run ends.  To speak of what it does on the way, `Machine.walk` runs a
listing in the same manner and also keeps the statements that it executes, each by its index and
with the machine that it finds (`walk_run`: the end is that of `Machine.run`).

Walks compose by `Walk.andThen`, which is associative, and a few lemmas are all that a proof about
listings needs to know of the runner:

* `walkFrom_skip` — passing over statements is going on behind them,
* `walkFrom_straight` — a statement that neither opens nor closes a block hands on to the next one,
* `walkFrom_branch_true`, `walkFrom_branch_false`, `walkFrom_endBlock` — what the others do,
* `blockLength?_straight`, `blockLength?_opens`, `blockLength?_end` — how blocks are measured.

`Arrives` is the same run as a relation, one constructor for each way to go on, and
**`mem_visited_iff`** says that the statements executed are those that it arrives at.
-/

namespace Scriptlet

namespace Machine

/-- A run with the statements executed in it. -/
structure Walk where
  /-- The indices of the statements, in order, and the machine that each was executed on. -/
  visited : List (Nat × Machine)
  run : Run

namespace Walk

/-- Nothing is executed. -/
def rest (m : Machine) : Walk :=
  ⟨[], ⟨m, none⟩⟩

/-- One statement is executed and leaves the machine `after`. -/
def step (index : Nat) (m after : Machine) : Walk :=
  ⟨[(index, m)], ⟨after, none⟩⟩

/-- One statement is executed and stops the machine. -/
def stop (index : Nat) (m after : Machine) (s : Option Statement) (fault : Fault) : Walk :=
  ⟨[(index, m)], ⟨after, some ⟨index, s, fault⟩⟩⟩

/-- Goes on where a walk ended, unless it ended in an error. -/
def andThen (w : Walk) (next : Machine → Walk) : Walk :=
  match w.run.error with
  | none => ⟨w.visited ++ (next w.run.machine).visited, (next w.run.machine).run⟩
  | some _ => w

@[simp] lemma andThen_rest (w : Walk) : w.andThen rest = w := by
  obtain ⟨visited, machine, error⟩ := w
  cases error <;> simp [andThen, rest]

lemma andThen_assoc (w : Walk) (f g : Machine → Walk) :
    (w.andThen f).andThen g = w.andThen fun m => (f m).andThen g := by
  obtain ⟨visited, machine, error⟩ := w
  cases error with
  | some e => rfl
  | none => cases h : (f machine).run.error <;> simp [andThen, h]

end Walk

/-! ## The runner with its trace -/

/-- Runs the rest of a listing in the manner of `Machine.runFrom` and keeps what is executed. -/
def walkFrom (m : Machine) (index skip : Nat) : List (Option Statement) → Walk
  | [] => .rest m
  | s :: rest =>
    match skip with
    | skip + 1 => m.walkFrom (index + 1) skip rest
    | 0 =>
      match m.executeSlot s with
      | .next after => (Walk.step index m after).andThen (·.walkFrom (index + 1) 0 rest)
      | .skip after =>
        match blockLength? 0 rest with
        | some n => (Walk.step index m after).andThen (·.walkFrom (index + 1) n rest)
        | none => .stop index m after s .unbalancedBlock
      | .stop after fault => .stop index m after s fault

/-- Runs a listing and keeps what is executed. -/
def walk (m : Machine) (listing : List Statement) : Walk :=
  m.walkFrom 0 0 (listing.map some)

lemma step_andThen_run (index : Nat) (m after : Machine) (next : Machine → Walk) :
    ((Walk.step index m after).andThen next).run = (next after).run := rfl

lemma walkFrom_run (m : Machine) (index skip : Nat) (slots : List (Option Statement)) :
    (m.walkFrom index skip slots).run = m.runFrom index skip slots := by
  induction slots generalizing m index skip with
  | nil => rfl
  | cons s rest ih =>
      cases skip with
      | succ skip => exact ih m (index + 1) skip
      | zero =>
          simp only [walkFrom, runFrom]
          cases m.executeSlot s with
          | next after => rw [step_andThen_run, ih]
          | skip after =>
              cases blockLength? 0 rest with
              | some n => simp only [step_andThen_run, ih]
              | none => rfl
          | stop after fault => rfl

/-- The walk of a listing ends as its run does. -/
theorem walk_run (m : Machine) (listing : List Statement) :
    (m.walk listing).run = m.run listing :=
  m.walkFrom_run 0 0 (listing.map some)

/-- A run that fails names the statement at the index that it names. -/
lemma runFrom_error {m : Machine} {index skip : Nat} {slots : List (Option Statement)}
    {e : RuntimeError} (h : (m.runFrom index skip slots).error = some e) :
    ∃ k, e.index = index + k ∧ slots[k]? = some e.statement := by
  induction slots generalizing m index skip with
  | nil => simp [runFrom] at h
  | cons s rest ih =>
      -- an error behind the first statement lies one further on
      have hlater {m : Machine} {skip : Nat}
          (h : (m.runFrom (index + 1) skip rest).error = some e) :
          ∃ k, e.index = index + k ∧ (s :: rest)[k]? = some e.statement := by
        obtain ⟨k, hindex, hk⟩ := ih h
        exact ⟨k + 1, by omega, hk⟩
      cases skip with
      | succ skip => exact hlater h
      | zero =>
          simp only [runFrom] at h
          split at h
          · exact hlater h
          · split at h
            · exact hlater h
            · exact ⟨0, by simp [← Option.some.inj h], by simp [← Option.some.inj h]⟩
          · exact ⟨0, by simp [← Option.some.inj h], by simp [← Option.some.inj h]⟩

lemma run_error {m : Machine} {listing : List Statement} {e : RuntimeError}
    (h : (m.run listing).error = some e) : listing[e.index]? = e.statement := by
  obtain ⟨k, hindex, hk⟩ := runFrom_error h
  rw [List.getElem?_map, Option.map_eq_some_iff] at hk
  obtain ⟨s, hs, hstatement⟩ := hk
  rw [hindex, Nat.zero_add, hs, hstatement]

/-- Passing over statements is going on behind them. -/
lemma walkFrom_skip (m : Machine) (index skip : Nat) (slots : List (Option Statement)) :
    m.walkFrom index skip slots = m.walkFrom (index + skip) 0 (slots.drop skip) := by
  induction slots generalizing index skip with
  | nil => simp [walkFrom]
  | cons s rest ih =>
      cases skip with
      | zero => rfl
      | succ skip =>
          rw [walkFrom, ih, List.drop_succ_cons]
          congr 1
          omega

/-! ## Statements without blocks -/

end Machine

/-- Whether a statement neither opens nor closes a block. -/
def Statement.isStraight : Statement → Bool
  | branch | beginBlock | endBlock => false
  | _ => true

namespace Machine

/-- Executes one statement. -/
def perform (m : Machine) (index : Nat) (s : Statement) : Walk :=
  match m.execute s with
  | .next after => .step index m after
  | .skip after => .step index m after
  | .stop after fault => .stop index m after (some s) fault

/-- Executes statements in order, up to the first that fails. -/
def performAll (m : Machine) (index : Nat) : List Statement → Walk
  | [] => .rest m
  | s :: rest => (m.perform index s).andThen (·.performAll (index + 1) rest)

lemma update_ne_skip (m after : Machine) (f : Value → Except Fault Value) :
    m.update f ≠ .skip after := by
  unfold update
  split
  · simp
  · split <;> simp

/-- Only a branch passes over statements. -/
lemma execute_ne_skip {m after : Machine} {s : Statement} (hs : s.isStraight) :
    m.execute s ≠ .skip after := by
  cases s with
  | branch => simp [Statement.isStraight] at hs
  | clear literal => exact update_ne_skip _ _ _
  | push literal => exact update_ne_skip _ _ _
  | get name => exact update_ne_skip _ _ _
  | compare op =>
      simp only [execute, compareTop]
      split
      · split <;> simp
      · simp
  | type _ | declare _ | load _ | test _ =>
      simp only [execute]
      split <;> simp
  | _ => simp [execute]

lemma walkFrom_straight {s : Statement} (hs : s.isStraight) (m : Machine) (index : Nat)
    (rest : List (Option Statement)) :
    m.walkFrom index 0 (some s :: rest)
      = (m.perform index s).andThen (·.walkFrom (index + 1) 0 rest) := by
  simp only [walkFrom, executeSlot, perform]
  cases h : m.execute s with
  | next after => rfl
  | skip after => exact absurd h (execute_ne_skip hs)
  | stop after fault => rfl

lemma walkFrom_straights {l : List Statement} (hl : ∀ s ∈ l, s.isStraight) (m : Machine)
    (index : Nat) (rest : List (Option Statement)) :
    m.walkFrom index 0 (l.map some ++ rest)
      = (m.performAll index l).andThen (·.walkFrom (index + l.length) 0 rest) := by
  induction l generalizing m index with
  | nil => rfl
  | cons s l ih =>
      rw [List.map_cons, List.cons_append, walkFrom_straight (hl s (by simp)), performAll,
        Walk.andThen_assoc]
      congr 1
      funext after
      rw [ih (fun u hu => hl u (by simp [hu])), List.length_cons]
      congr 1
      funext last
      congr 1
      omega

/-! ## Branches and ends of blocks -/

lemma walkFrom_endBlock (m : Machine) (index : Nat) (rest : List (Option Statement)) :
    m.walkFrom index 0 (some .endBlock :: rest)
      = (Walk.step index m m).andThen (·.walkFrom (index + 1) 0 rest) := rfl

lemma walkFrom_branch_empty {m : Machine} (h : m.conditions = []) (index : Nat)
    (rest : List (Option Statement)) :
    m.walkFrom index 0 (some .branch :: rest)
      = .stop index m m (some .branch) .emptyCondition := by
  simp [walkFrom, executeSlot, execute, branchTop, h]

lemma walkFrom_branch_true {m : Machine} {c : Value} {below : Stack Value}
    (h : m.conditions = c :: below) (hc : c.isTrue = true) (index : Nat)
    (rest : List (Option Statement)) :
    m.walkFrom index 0 (some .branch :: rest)
      = (Walk.step index m { m with conditions := below }).andThen
          (·.walkFrom (index + 1) 0 rest) := by
  simp [walkFrom, executeSlot, execute, branchTop, h, hc]

lemma walkFrom_branch_false {m : Machine} {c : Value} {below : Stack Value}
    (h : m.conditions = c :: below) (hc : c.isTrue = false) (index : Nat) {n : Nat}
    {rest : List (Option Statement)} (hn : blockLength? 0 rest = some n) :
    m.walkFrom index 0 (some .branch :: rest)
      = (Walk.step index m { m with conditions := below }).andThen
          (·.walkFrom (index + 1) n rest) := by
  simp [walkFrom, executeSlot, execute, branchTop, h, hc, hn]

/-! ## The length of a block -/

lemma blockLength?_straight {s : Statement} (hs : s.isStraight) (depth : Nat)
    (rest : List (Option Statement)) :
    blockLength? depth (some s :: rest) = (blockLength? depth rest).map (· + 1) := by
  cases s <;> simp_all [Statement.isStraight, blockLength?, Statement.opensBlock]

lemma blockLength?_straights {l : List Statement} (hl : ∀ s ∈ l, s.isStraight) (depth : Nat)
    (rest : List (Option Statement)) :
    blockLength? depth (l.map some ++ rest)
      = (blockLength? depth rest).map (· + l.length) := by
  induction l with
  | nil => simp
  | cons s l ih =>
      rw [List.map_cons, List.cons_append, blockLength?_straight (hl s (by simp)),
        ih (fun u hu => hl u (by simp [hu]))]
      cases blockLength? depth rest with
      | none => rfl
      | some n => simp only [Option.map_some, List.length_cons]; congr 1

lemma blockLength?_opens {s : Statement} (hs : s.opensBlock) (depth : Nat)
    (rest : List (Option Statement)) :
    blockLength? depth (some s :: rest) = (blockLength? (depth + 1) rest).map (· + 1) := by
  cases s <;> simp_all [blockLength?, Statement.opensBlock]

lemma blockLength?_end (depth : Nat) (rest : List (Option Statement)) :
    blockLength? (depth + 1) (some .endBlock :: rest) = (blockLength? depth rest).map (· + 1) :=
  rfl

/-! ## Where a run arrives -/

/-- How many statements the one at an index passes over on the machine, if it passes over any. -/
def passedOver? (m : Machine) (listing : List Statement) (index : Nat) : Option Nat :=
  match listing[index]?.map m.execute with
  | some (.skip _) => blockLength? 0 ((listing.drop (index + 1)).map some)
  | _ => none

lemma passedOver?_eq_some_iff {m : Machine} {listing : List Statement} {index n : Nat} :
    m.passedOver? listing index = some n ↔
      ∃ s after, listing[index]? = some s ∧ m.execute s = .skip after ∧
        blockLength? 0 ((listing.drop (index + 1)).map some) = some n := by
  unfold passedOver?
  constructor
  · intro h
    split at h
    · next after hskip =>
        obtain ⟨s, hs, hskip⟩ := Option.map_eq_some_iff.mp hskip
        exact ⟨s, after, hs, hskip, h⟩
    · simp at h
  · rintro ⟨s, after, hs, hskip, hn⟩
    simpa [hs, hskip] using hn

/-- The run of a listing comes to the index with the machine. -/
inductive Arrives (start : Machine) (listing : List Statement) : Nat → Machine → Prop where
  | start : Arrives start listing 0 start
  | next {index : Nat} {m after : Machine} {s : Statement} : Arrives start listing index m →
      listing[index]? = some s → m.execute s = .next after →
      Arrives start listing (index + 1) after
  | pass {index n : Nat} {m after : Machine} {s : Statement} : Arrives start listing index m →
      listing[index]? = some s → m.execute s = .skip after →
      blockLength? 0 ((listing.drop (index + 1)).map some) = some n →
      Arrives start listing (index + 1 + n) after

section Arrives

variable {start m : Machine} {listing : List Statement} {index : Nat}

/-- A walk that starts where a run arrives stays where the run arrives. -/
lemma Arrives.of_mem_walkFrom {rest : List Statement} (skip : Nat) {i : Nat} {k : Machine}
    (hrest : listing.drop index = rest) (hm : Arrives start listing (index + skip) m)
    (h : (i, k) ∈ (m.walkFrom index skip (rest.map some)).visited) :
    Arrives start listing i k ∧ i < listing.length := by
  induction rest generalizing m index skip with
  | nil => simp [walkFrom, Walk.rest] at h
  | cons s rest ih =>
      have hs : listing[index]? = some s := by
        rw [← List.head?_drop, hrest, List.head?_cons]
      have htail : listing.drop (index + 1) = rest := by
        rw [← List.tail_drop, hrest, List.tail_cons]
      have hlt : index < listing.length := (List.getElem?_eq_some_iff.mp hs).1
      cases skip with
      | succ skip =>
          refine ih skip htail ?_ h
          rwa [Nat.add_right_comm, Nat.add_assoc]
      | zero =>
          simp only [List.map_cons, walkFrom, executeSlot] at h
          split at h
          · next after hnext =>
              rcases List.mem_cons.mp h with heq | h
              · cases heq
                exact ⟨hm, hlt⟩
              · exact ih 0 htail (.next hm hs hnext) h
          · next after hskip =>
              split at h
              · next n hn =>
                  rcases List.mem_cons.mp h with heq | h
                  · cases heq
                    exact ⟨hm, hlt⟩
                  · exact ih n htail (.pass hm hs hskip (by rw [htail]; exact hn)) h
              · cases List.mem_singleton.mp h
                exact ⟨hm, hlt⟩
          · cases List.mem_singleton.mp h
            exact ⟨hm, hlt⟩

/-- From where a run arrives, it walks on as any walk from there. -/
lemma Arrives.walkFrom_suffix (h : Arrives start listing index m) :
    (m.walkFrom index 0 ((listing.drop index).map some)).visited
      <:+ (start.walk listing).visited := by
  induction h with
  | start => exact List.suffix_refl _
  | @next index m after s _ hs hnext ih =>
      refine List.IsSuffix.trans ?_ ih
      rw [List.drop_eq_getElem?_toList_append (i := index), hs]
      simp only [Option.toList_some, List.cons_append, List.nil_append, List.map_cons, walkFrom,
        executeSlot, hnext]
      exact List.suffix_cons _ _
  | @pass index n m after s _ hs hskip hn ih =>
      refine List.IsSuffix.trans ?_ ih
      rw [List.drop_eq_getElem?_toList_append (i := index), hs]
      simp only [Option.toList_some, List.cons_append, List.nil_append, List.map_cons, walkFrom,
        executeSlot, hskip, hn]
      rw [← List.drop_drop, List.map_drop, ← walkFrom_skip]
      exact List.suffix_cons _ _

lemma mem_walkFrom_cons (m : Machine) (index : Nat) (s : Option Statement)
    (rest : List (Option Statement)) : (index, m) ∈ (m.walkFrom index 0 (s :: rest)).visited := by
  simp only [walkFrom]
  split
  · exact List.mem_cons_self
  · split
    · exact List.mem_cons_self
    · exact List.mem_singleton_self _
  · exact List.mem_singleton_self _

/-- **The statements that a run executes are those that it arrives at.** -/
theorem mem_visited_iff {listing : List Statement} :
    (index, m) ∈ (start.walk listing).visited ↔
      Arrives start listing index m ∧ index < listing.length := by
  constructor
  · exact Arrives.of_mem_walkFrom 0 List.drop_zero .start
  · rintro ⟨h, hlt⟩
    refine h.walkFrom_suffix.subset ?_
    rw [List.drop_eq_getElem_cons hlt]
    exact mem_walkFrom_cons m index _ _

end Arrives

end Machine

end Scriptlet
