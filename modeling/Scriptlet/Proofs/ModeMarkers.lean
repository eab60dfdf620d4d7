import Mathlib
import Scriptlet.Proofs.BlockStructure
import Scriptlet.Proofs.Reachable

/-!
# Two readings of the mode markers

A listing marks a type or an operator only where it changes.  The compiler and the machine each
keep the modes that the markers leave in force, but they do not read them alike: the compiler reads
the listing from front to end, the machine reads what it executes.  A marker inside a block that
the machine passes over counts for the one and not for the other.

`Dialect.emissions` is the listing with the modes of the compiler at each statement, and
`Machine.modes` the modes of a machine.

* `Dialect.emissions_chain` — the modes of the compiler are the markers read in order.  This needs of
  the handlers only that they set no mode (`Dialect.emissionsFrom_chain`).
* `modes_of_next`, `modes_of_skip` — the machine reads a marker that it executes in the same way,
  and passes over blocks without reading any.
* **`inStep_iff_keepsModes`** — the machine has the modes of the compiler at every statement it
  executes exactly if every block that it passes over leaves the modes as they were.  Both sides
  can be evaluated.
-/

namespace Scriptlet

open Compile Machine

/-! ## The modes of the compiler -/

/-- A statement with the modes of the compiler at the moment that it is emitted. -/
structure Emission where
  modes : Modes
  statement : Statement
deriving DecidableEq, Repr

@[simp] lemma Emission.statement_stamp (m : Modes) (l : List Statement) :
    l.map (Emission.statement ∘ fun s => ⟨m, s⟩) = l :=
  List.map_id l

/-- What the compiler emits while it reads tokens. -/
def Dialect.emissionsFrom (d : Dialect) (s : State) : List Token → List Emission
  | [] => []
  | t :: rest =>
    (d.step s t).statements.map (⟨s.modes, ·⟩) ++
      match (d.step s t).next with
      | .ok next => d.emissionsFrom next rest
      | .error _ => []

/-- All that the compiler emits, the three markers first. -/
def Dialect.emissions (d : Dialect) (ts : List Token) : List Emission :=
  seedMarkers.map (⟨.initial, ·⟩) ++ d.emissionsFrom .initial ts

lemma Dialect.emissionsFrom_statements (d : Dialect) (s : State) (ts : List Token) :
    (d.emissionsFrom s ts).map Emission.statement = (d.read s ts).statements := by
  induction ts generalizing s with
  | nil => rfl
  | cons t ts ih =>
      rw [Dialect.emissionsFrom, Dialect.read, Step.andThen]
      cases hnext : (d.step s t).next with
      | ok next =>
          simp only [List.map_append, List.map_map, ih next, Step.statements,
            List.filterMap_append]
          simp
      | error e => simp [Step.statements]

/-- The statements emitted are the listing. -/
lemma Dialect.emissions_statements {d : Dialect} {ts : List Token} {listing : List Statement}
    (h : (d.compile ts).listing = .ok listing) :
    (d.emissions ts).map Emission.statement = listing := by
  obtain ⟨out, s', hreads, _, rfl⟩ := listing_eq_ok_iff_reads.mp h
  rw [Dialect.emissions, List.map_append, d.emissionsFrom_statements, hreads.statements]
  rfl

/-! ## Markers read in order -/

/-- The modes behind a statement. -/
def Modes.after (m : Modes) : Statement → Modes
  | .type name => { m with type := name }
  | .operator op => { m with operator := op }
  | _ => m

/-- The modes at each statement are those that the markers before it leave, from the first modes to
the last. -/
def Chain (first last : Modes) : List Emission → Prop
  | [] => first = last
  | e :: rest => e.modes = first ∧ Chain (first.after e.statement) last rest

namespace Chain

variable {first middle last : Modes} {es fs : List Emission} {i : Nat} {e f : Emission}

lemma append (h₁ : Chain first middle es) (h₂ : Chain middle last fs) :
    Chain first last (es ++ fs) := by
  induction es generalizing first with
  | nil =>
      have heq : first = middle := h₁
      exact heq ▸ h₂
  | cons e es ih => exact ⟨h₁.1, ih h₁.2⟩

lemma head (h : Chain first last es) (he : es[0]? = some e) : e.modes = first := by
  cases es with
  | nil => simp at he
  | cons e' es =>
      rw [← Option.some.inj he]
      exact h.1

lemma next (h : Chain first last es) (he : es[i]? = some e) (hf : es[i + 1]? = some f) :
    f.modes = e.modes.after e.statement := by
  induction es generalizing first i with
  | nil => simp at he
  | cons e' es ih =>
      cases i with
      | succ i => exact ih h.2 he hf
      | zero =>
          rw [← Option.some.inj he, h.1]
          exact h.2.head hf

/-- Statements that change no mode. -/
lemma of_keep (m : Modes) {out : List Statement} (h : ∀ s ∈ out, m.after s = m) :
    Chain m m (out.map (⟨m, ·⟩)) := by
  induction out with
  | nil => rfl
  | cons s out ih =>
      refine ⟨rfl, ?_⟩
      rw [h s (by simp)]
      exact ih fun u hu => h u (by simp [hu])

/-- A marker that is left out if its type is in force. -/
lemma typeMarker (m : Modes) (type : Text) :
    Chain m { m with type } ((m.typeMarker type).map (⟨m, ·⟩)) := by
  unfold Modes.typeMarker
  split_ifs with h
  · exact h ▸ rfl
  · exact ⟨rfl, rfl⟩

lemma operatorMarker (m : Modes) (operator : Text) :
    Chain m { m with operator } ((m.operatorMarker operator).map (⟨m, ·⟩)) := by
  unfold Modes.operatorMarker
  split_ifs with h
  · exact h ▸ rfl
  · exact ⟨rfl, rfl⟩

lemma restartMarker (m : Modes) : Chain m m.restart (m.restartMarker.map (⟨m, ·⟩)) := by
  unfold Modes.restart Modes.restartMarker
  split_ifs
  · rfl
  · exact operatorMarker m "+"

end Chain

/-! ### Handlers that set no mode -/

/-- What the handler puts in front of a body sets no mode. -/
def Handler.SetsNoMode (handler : Handler) : Prop :=
  ∀ head front, handler head = .ok front → ∀ s ∈ front, ∀ m : Modes, m.after s = m

lemma Condition.head_setsNoMode : Handler.SetsNoMode Condition.head := by
  intro head front h s hs m
  rcases Condition.head_cases h with ⟨a, -, rfl⟩ | ⟨a, c, b, -, rfl⟩ <;>
    simp only [List.mem_cons, List.not_mem_nil, or_false] at hs
  · rcases hs with rfl | rfl <;> rfl
  · rcases hs with rfl | rfl | rfl | rfl <;> rfl

/-- No handler of the dialect sets a mode. -/
def Dialect.SetsNoMode (d : Dialect) : Prop :=
  ∀ (word : Text) (handler : Handler), d.keywords[word]? = some handler →
    Handler.SetsNoMode handler

lemma Dialect.standard_setsNoMode (strict : Bool) :
    Dialect.SetsNoMode ⟨.standard, strict⟩ := by
  intro word handler h
  rw [Keywords.standard_handler h]
  exact Condition.head_setsNoMode

/-- In the head of a keyword, the handler sets no mode. -/
def Compile.Place.SetsNoMode : Place → Prop
  | .head handler _ _ _ => Handler.SetsNoMode handler
  | _ => True

/-- **A move leads from its modes to the next ones by the markers it emits.** -/
lemma Move.chain {d : Dialect} (hd : d.SetsNoMode) {s s' : State} {t : Token}
    {out : List Statement} (h : Move d s t out s') (hs : s.place.SetsNoMode) :
    Chain s.modes s'.modes (out.map (⟨s.modes, ·⟩)) ∧ s'.place.SetsNoMode := by
  cases h with
  | type hplace _ => exact ⟨.typeMarker s.modes t.literal, hs⟩
  | declare hplace _ => exact ⟨.of_keep _ (by simp [Modes.after]), hs⟩
  | equals hplace _ _ _ =>
      rw [List.map_append]
      exact ⟨.append (.of_keep _ (by simp [Modes.after])) (.restartMarker s.modes), trivial⟩
  | ignored hplace _ _ _ => exact ⟨rfl, hs⟩
  | keyword hplace _ hsome => exact ⟨rfl, hd _ _ hsome⟩
  | closing hplace _ _ => exact ⟨.of_keep _ (by simp [Modes.after]), hs⟩
  | operand hplace _ =>
      refine ⟨?_, trivial⟩
      cases hk : t.kind with
      | binaryOperator =>
          simpa [expressionCode, expressionModes, hk] using .operatorMarker s.modes _
      | _ =>
          simp only [expressionCode, expressionModes, hk, reduceCtorEq, if_false]
          exact .of_keep _ (by simp [Modes.after])
  | terminator hplace _ => exact ⟨rfl, trivial⟩
  | head hplace _ =>
      rw [hplace] at hs
      exact ⟨rfl, hs⟩
  | opening hplace _ hfront =>
      rw [hplace] at hs
      refine ⟨.of_keep _ fun u hu => ?_, trivial⟩
      rcases List.mem_append.mp hu with hu | hu
      · exact hs _ _ hfront u hu s.modes
      · split_ifs at hu
        · simp at hu
        · rw [List.mem_singleton.mp hu]
          rfl

lemma Dialect.emissionsFrom_chain {d : Dialect} (hd : d.SetsNoMode) {s s' : State}
    {ts : List Token} {out : List Statement} (h : Reads d s ts out s')
    (hs : s.place.SetsNoMode) : Chain s.modes s'.modes (d.emissionsFrom s ts) := by
  induction ts generalizing s out with
  | nil =>
      have heq : s = s' := by simpa [Dialect.read] using h.next
      exact heq ▸ rfl
  | cons t ts ih =>
      obtain ⟨s₁, hstep, hrest, _⟩ := h.first
      obtain ⟨hfirst, hplace⟩ := (Move.of_step hstep).chain hd hs
      rw [Dialect.emissionsFrom, hstep]
      exact hfirst.append (ih hrest hplace)

/-- **The modes of the compiler are the markers read in order.** -/
theorem Dialect.emissions_chain {strict : Bool} {ts : List Token} {listing : List Statement}
    (h : (Dialect.compile ⟨.standard, strict⟩ ts).listing = .ok listing) :
    ∃ last, Chain .initial last (Dialect.emissions ⟨.standard, strict⟩ ts) := by
  obtain ⟨out, s', hreads, _, _⟩ := listing_eq_ok_iff_reads.mp h
  exact ⟨s'.modes, rfl, rfl, rfl,
    Dialect.emissionsFrom_chain (Dialect.standard_setsNoMode strict) hreads trivial⟩

/-! ## The modes of the machine -/

namespace Machine

/-- The modes in force on a machine. -/
def modes (m : Machine) : Modes :=
  ⟨m.type, m.operator⟩

lemma update_modes {m after : Machine} {f : Value → Except Fault Value}
    (h : m.update f = .next after) : after.modes = m.modes := by
  unfold update at h
  split at h
  · simp at h
  · split at h
    · rw [← Effect.next.inj h]; rfl
    · simp at h

/-- The machine reads a marker that it executes as the compiler does. -/
lemma modes_of_next {m after : Machine} {s : Statement} (h : m.execute s = .next after) :
    after.modes = m.modes.after s := by
  cases s with
  | clear literal => exact update_modes h
  | push literal => exact update_modes h
  | get name => exact update_modes h
  | type _ | declare _ | load _ | test _ =>
      simp only [execute] at h
      split at h
      · rw [← Effect.next.inj h]; rfl
      · simp at h
  | compare op =>
      simp only [execute, compareTop] at h
      split at h
      · split at h
        · rw [← Effect.next.inj h]; rfl
        · simp at h
      · simp at h
  | branch =>
      simp only [execute, branchTop] at h
      split at h
      · simp at h
      · split_ifs at h
        rw [← Effect.next.inj h]; rfl
  | _ =>
      rw [← Effect.next.inj h]
      rfl

/-- Passing over a block sets no mode. -/
lemma modes_of_skip {m after : Machine} {s : Statement} (h : m.execute s = .skip after) :
    after.modes = m.modes := by
  cases s with
  | branch =>
      simp only [execute, branchTop] at h
      split at h
      · simp at h
      · split_ifs at h
        rw [← Effect.skip.inj h]; rfl
  | beginBlock => simp [execute] at h
  | endBlock => simp [execute] at h
  | _ => exact absurd h (execute_ne_skip rfl)

end Machine

/-! ## Machine and compiler in step -/

section InStep

variable (es : List Emission)

/-- What the run on a new machine executes: indices of statements, each with the machine it
finds. -/
def executed : List (Nat × Machine) :=
  (Machine.new.walk (es.map Emission.statement)).visited

/-- **At every statement that the run executes, the machine has the modes that the compiler
had.** -/
def InStep : Prop :=
  ∀ v ∈ executed es, ∀ e ∈ es[v.1]?, v.2.modes = e.modes

instance : Decidable (InStep es) :=
  inferInstanceAs (Decidable (∀ v ∈ executed es, ∀ e ∈ es[v.1]?, v.2.modes = e.modes))

/-- **Every block that the run passes over leaves the modes as it found them**: they are the same
at the statement behind the block, if there is one, as at the branch in front of it. -/
def KeepsModes : Prop :=
  ∀ v ∈ executed es, ∀ e ∈ es[v.1]?, ∀ n ∈ v.2.passedOver? (es.map Emission.statement) v.1,
    ∀ f ∈ es[v.1 + 1 + n]?, f.modes = e.modes

instance : Decidable (KeepsModes es) :=
  inferInstanceAs (Decidable (∀ v ∈ executed es, ∀ e ∈ es[v.1]?,
    ∀ n ∈ v.2.passedOver? (es.map Emission.statement) v.1, ∀ f ∈ es[v.1 + 1 + n]?,
      f.modes = e.modes))

variable {es} {last : Modes}

lemma KeepsModes.modes_of_arrives (h : KeepsModes es) (hes : Chain .initial last es) {i : Nat}
    {m : Machine} (hm : Arrives .new (es.map Emission.statement) i m) :
    ∀ e, es[i]? = some e → m.modes = e.modes := by
  induction hm with
  | start => exact fun e he => (hes.head he).symm
  | @next i m after s _ hs hnext ih =>
      intro f hf
      obtain ⟨e, he, rfl⟩ := Option.map_eq_some_iff.mp (List.getElem?_map ▸ hs)
      rw [modes_of_next hnext, ih e he, hes.next he hf]
  | @pass i n m after s hm hs hskip hn ih =>
      intro f hf
      have hvisited := mem_visited_iff.mpr ⟨hm, (List.getElem?_eq_some_iff.mp hs).1⟩
      have hpassed := passedOver?_eq_some_iff.mpr ⟨s, after, hs, hskip, hn⟩
      obtain ⟨e, he, rfl⟩ := Option.map_eq_some_iff.mp (List.getElem?_map ▸ hs)
      rw [modes_of_skip hskip, ih e he, h (i, m) hvisited e he n hpassed f hf]

/-- **The machine is in step with the compiler exactly if the blocks it passes over keep the
modes.** -/
theorem inStep_iff_keepsModes (hes : Chain .initial last es) : InStep es ↔ KeepsModes es := by
  constructor
  · rintro h ⟨i, m⟩ hm e he n hpassed f hf
    -- behind the block the machine has the modes that it had at the branch
    obtain ⟨s, after, hs, hskip, hn⟩ := passedOver?_eq_some_iff.mp hpassed
    have hbehind : (i + 1 + n, after) ∈ executed es := by
      refine mem_visited_iff.mpr ⟨.pass (mem_visited_iff.mp hm).1 hs hskip hn, ?_⟩
      rw [List.length_map]
      exact (List.getElem?_eq_some_iff.mp hf).1
    calc f.modes = after.modes := (h _ hbehind f hf).symm
      _ = m.modes := modes_of_skip hskip
      _ = e.modes := h _ hm e he
  · rintro h ⟨i, m⟩ hm e he
    exact h.modes_of_arrives hes (mem_visited_iff.mp hm).1 e he

end InStep

end Scriptlet
