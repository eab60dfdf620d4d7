import Mathlib
import Scriptlet.Machine.Basic

/-!
# Reachable machines

A machine is reachable if it comes from the new one by runs of arbitrary listings, well formed or
not, that succeed or fail, with gaps or without.

* `Reachable.invariant` — what holds of the new machine and is kept by every statement holds of
  every reachable machine.  The induction over runs is done here once.
* `Leads` — the same from one machine to a later one, for what holds from some moment on.
* `Machine.Sound` — the invariant that everything else rests on: every place that a name or a
  target stands for is in the store, the store and the stack of conditions hold values of the
  language only, and the type in force is one of its three.
* **`Reachable.sound`** — every reachable machine is sound.
-/

namespace Scriptlet

namespace Machine

/-- The machines that runs of listings lead to. -/
inductive Reachable : Machine → Prop where
  | new : Reachable new
  | run {m : Machine} (slots : List (Option Statement)) :
      Reachable m → Reachable (m.runSlots slots).machine

/-- The machine that a statement leaves. -/
def Effect.machine : Effect → Machine
  | next m => m
  | skip m => m
  | stop m _ => m

/-- What the statements of a listing keep, its run keeps. -/
lemma runFrom_invariant {P : Machine → Prop} {slots : List (Option Statement)}
    (hstep : ∀ m s, some s ∈ slots → P m → P (m.execute s).machine) {m : Machine} (hm : P m)
    (index skip : Nat) : P (m.runFrom index skip slots).machine := by
  induction slots generalizing m index skip with
  | nil => exact hm
  | cons s rest ih =>
      have ih {m : Machine} (hm : P m) (index skip : Nat) :
          P (m.runFrom index skip rest).machine :=
        ih (fun m s hs => hstep m s (List.mem_cons_of_mem _ hs)) hm index skip
      cases skip with
      | succ skip => exact ih hm (index + 1) skip
      | zero =>
          cases s with
          | none => exact hm
          | some s =>
              have hafter := hstep m s List.mem_cons_self hm
              simp only [runFrom, executeSlot]
              cases h : m.execute s with
              | next after => rw [h] at hafter; exact ih hafter (index + 1) 0
              | skip after =>
                  rw [h] at hafter
                  cases blockLength? 0 rest with
                  | none => exact hafter
                  | some n => exact ih hafter (index + 1) n
              | stop after fault => rw [h] at hafter; exact hafter

/-- **What every statement keeps, every reachable machine has.** -/
theorem Reachable.invariant {P : Machine → Prop} (hnew : P Machine.new)
    (hstep : ∀ m s, P m → P (m.execute s).machine) {m : Machine} (h : Reachable m) : P m := by
  induction h with
  | new => exact hnew
  | run slots _ ih => exact runFrom_invariant (fun m s _ => hstep m s) ih 0 0

/-! ### From one machine to a later one -/

/-- The machines that runs of listings lead to from a given one. -/
inductive Leads (start : Machine) : Machine → Prop where
  | refl : Leads start start
  | run {m : Machine} (slots : List (Option Statement)) :
      Leads start m → Leads start (m.runSlots slots).machine

/-- A single statement is a run of its own. -/
lemma runSlots_singleton (m : Machine) (s : Statement) :
    (m.runSlots [some s]).machine = (m.execute s).machine := by
  simp only [runSlots, runFrom, executeSlot]
  cases m.execute s <;> rfl

namespace Leads

variable {start m later : Machine}

lemma execute (m : Machine) (s : Statement) : m.Leads (m.execute s).machine := by
  rw [← runSlots_singleton]
  exact .run _ .refl

lemma trans (h₁ : start.Leads m) (h₂ : m.Leads later) : start.Leads later := by
  induction h₂ with
  | refl => exact h₁
  | run slots _ ih => exact .run slots ih

/-- What a machine has and every statement keeps, every later machine has. -/
theorem invariant {P : Machine → Prop} (h : start.Leads m) (hstart : P start)
    (hstep : ∀ m s, P m → P (m.execute s).machine) : P m := by
  induction h with
  | refl => exact hstart
  | run slots _ ih => exact runFrom_invariant (fun m s _ => hstep m s) ih 0 0

end Leads

lemma Reachable.leads {m later : Machine} (h : m.Reachable) (hlater : m.Leads later) :
    later.Reachable := by
  induction hlater with
  | refl => exact h
  | run slots _ ih => exact .run slots ih

lemma Reachable.execute {m : Machine} (h : m.Reachable) (s : Statement) :
    (m.execute s).machine.Reachable :=
  h.leads (.execute m s)

end Machine

/-! ## Values of the language -/

@[simp] lemma ValueType.ofName?_name (t : ValueType) : ofName? t.name = some t := by
  cases t <;> decide

lemma ValueType.name_of_ofName? {name : Text} {type : ValueType} (h : ofName? name = some type) :
    type.name = name := by
  simpa using List.find?_some h

namespace Value

/-- **The values of the language**: of one of the three types, with nothing in the fields of the
other two. -/
inductive IsNative : Value → Prop where
  | int (n : Int64) : IsNative (.int n)
  | float (f : Float) : IsNative (.float f)
  | bool (b : Bool) : IsNative (.bool b)

section Fields

variable (n : Int64) (f : Float) (b : Bool) (t : ValueType)

@[simp] lemma type_int : (int n).type = ValueType.int.name := rfl

@[simp] lemma type_float : (float f).type = ValueType.float.name := rfl

@[simp] lemma type_bool : (bool b).type = ValueType.bool.name := rfl

@[simp] lemma zero_type : (zero t).type = t.name := rfl

@[simp] lemma whole_int : (int n).whole = n := rfl

end Fields

@[simp] lemma zero_isNative (t : ValueType) : (zero t).IsNative := by
  cases t with
  | int => exact .int 0
  | float => exact .float 0.0
  | bool => exact .bool false

lemma exists_type_of_isNative {v : Value} (h : v.IsNative) : ∃ t : ValueType, v.type = t.name := by
  cases h with
  | int n => exact ⟨.int, rfl⟩
  | float f => exact ⟨.float, rfl⟩
  | bool b => exact ⟨.bool, rfl⟩

@[simp] lemma zeroOf_name (t : ValueType) : zeroOf t.name = .ok (zero t) := by
  rw [zeroOf, ValueType.ofName?_name]

/-- Only the names of types have a zero. -/
lemma zeroOf_eq_ok {type : Text} {v : Value} (h : zeroOf type = .ok v) :
    ∃ t : ValueType, type = t.name ∧ v = zero t := by
  unfold zeroOf at h
  split at h
  · next t ht => exact ⟨t, (ValueType.name_of_ofName? ht).symm, (Except.ok.inj h).symm⟩
  · simp at h

lemma zeroOf_isNative {type : Text} {v : Value} (h : zeroOf type = .ok v) : v.IsNative := by
  obtain ⟨t, -, rfl⟩ := zeroOf_eq_ok h
  exact zero_isNative t

lemma result?_isNative {op : Operator} {a b v : Value} (h : result? op a b = some (.ok v)) :
    v.IsNative := by
  unfold result? at h
  split at h <;> (try split_ifs at h) <;>
    simp only [Option.some.injEq, Except.ok.injEq, reduceCtorEq] at h <;> (subst h; constructor)

lemma combine_isNative {op : Text} {a b v : Value} (h : combine op a b = .ok v) : v.IsNative := by
  unfold combine at h
  split at h
  · next result hresult =>
      obtain ⟨operator, _, hop⟩ := Option.bind_eq_some_iff.mp hresult
      rw [h] at hop
      exact result?_isNative hop
  · simp at h

lemma readAs?_isNative {t : ValueType} {literal : Text} {v : Value}
    (h : readAs? t literal = some v) : v.IsNative := by
  cases t <;>
    · obtain ⟨_, _, rfl⟩ := Option.map_eq_some_iff.mp h
      constructor

lemma infer?_isNative {literal : Text} {v : Value} (h : infer? literal = some v) :
    v.IsNative := by
  unfold infer? at h
  split at h
  · rw [← Option.some.inj h]
    exact .bool _
  · exact readAs?_isNative h

end Value

/-! ## Places in the store -/

namespace Store

variable {s : Store} {l k : Location} {v w : Value}

/-- The place holds a value. -/
def Live (s : Store) (l : Location) : Prop :=
  l.index < s.cells.size

lemma Live.read? (h : s.Live l) : ∃ v, s.read? l = some v := by
  have hl : l.index < s.cells.size := h
  exact ⟨s.cells[l.index], by simp [Store.read?, hl]⟩

lemma Live.add (h : s.Live l) (v : Value) : (s.add v).Live l := by
  have hl : l.index < s.cells.size := h
  simp only [Live, Store.add, Array.size_push]
  omega

lemma live_next (s : Store) (v : Value) : (s.add v).Live s.next := by
  simp [Live, Store.add, Store.next]

@[simp] lemma live_write : (s.write l v).Live k ↔ s.Live k := by
  simp [Live, Store.write]

/-- A store holds values of the language only. -/
def Native (s : Store) : Prop :=
  ∀ v ∈ s.cells, v.IsNative

lemma Native.read? (h : s.Native) (hv : s.read? l = some v) : v.IsNative :=
  h v (Array.mem_of_getElem? hv)

lemma Native.add (h : s.Native) (hv : v.IsNative) : (s.add v).Native := by
  intro w hw
  rcases Array.mem_push.mp hw with hw | rfl
  · exact h w hw
  · exact hv

lemma Native.write (h : s.Native) (hv : v.IsNative) : (s.write l v).Native := by
  intro w hw
  rcases Array.mem_or_eq_of_mem_setIfInBounds hw with hw | rfl
  · exact h w hw
  · exact hv

end Store

/-! ## Sound machines -/

namespace Machine

/-- Names and targets stand for places in the store, and all values are those of the language, as is
the type in force. -/
structure Sound (m : Machine) : Prop where
  scopes : ∀ {name : Text} {scope : Scope} {x : Text} {l : Location},
    m.scopes[name]? = some scope → scope[x]? = some l → m.store.Live l
  targets : ∀ l ∈ m.targets, m.store.Live l
  store : m.store.Native
  conditions : ∀ v ∈ m.conditions, v.IsNative
  type : ∃ t : ValueType, m.type = t.name

namespace Sound

variable {m : Machine}

lemma new : Sound new where
  scopes := by
    intro name scope x l hscope hx
    simp only [Machine.new, Std.TreeMap.getElem?_insert, Std.TreeMap.getElem?_emptyc] at hscope
    split_ifs at hscope
    rw [← Option.some.inj hscope] at hx
    simp at hx
  targets := by simp [Machine.new]
  store := by simp [Machine.new, Store.Native, Store.empty]
  conditions := by simp [Machine.new]
  type := ⟨.int, rfl⟩

lemma locate? (h : m.Sound) {x : Text} {l : Location} (hl : m.locate? x = some l) :
    m.store.Live l := by
  unfold Machine.locate? at hl
  split at hl
  · next scope hscope => exact h.scopes hscope hl
  · simp at hl

lemma value? (h : m.Sound) {x : Text} {v : Value} (hv : m.value? x = some v) : v.IsNative := by
  obtain ⟨l, _, hl⟩ := Option.bind_eq_some_iff.mp hv
  exact h.store.read? hl

lemma operand? (h : m.Sound) {x : Text} {v : Value} (hv : m.operand? x = some v) :
    v.IsNative := by
  unfold Machine.operand? at hv
  split at hv
  · next w hw =>
      rw [← Option.some.inj hv]
      exact Value.infer?_isNative hw
  · exact h.value? hv

lemma target? (h : m.Sound) {l : Location} {v : Value} (ht : m.target? = some (l, v)) :
    v.IsNative := by
  unfold Machine.target? at ht
  split at ht
  · next k _ =>
      obtain ⟨w, hw, heq⟩ := Option.map_eq_some_iff.mp ht
      rw [Prod.mk.injEq] at heq
      rw [← heq.2]
      exact h.store.read? hw
  · simp at ht

lemma enter (h : m.Sound) (name : Text) : (m.enter name).Sound where
  scopes := by
    intro key scope x l hscope hx
    simp only [Machine.enter, Std.TreeMap.getElem?_insertIfNew] at hscope
    split_ifs at hscope
    · rw [← Option.some.inj hscope] at hx
      simp at hx
    · exact h.scopes hscope hx
  targets := h.targets
  store := h.store
  conditions := h.conditions
  type := h.type

lemma declare (h : m.Sound) (name : Text) {v : Value} (hv : v.IsNative) :
    (m.declare name v).Sound where
  scopes := by
    intro key scope x l hscope hx
    simp only [Machine.declare, Scope.declare, Std.TreeMap.getElem?_insert] at hscope
    split_ifs at hscope
    · rw [← Option.some.inj hscope, Std.TreeMap.getElem?_insert] at hx
      split_ifs at hx
      · rw [← Option.some.inj hx]
        exact m.store.live_next _
      · rw [Std.TreeMap.getD_eq_getD_getElem?] at hx
        cases hold : m.scopes[m.scope]? with
        | none => simp [hold] at hx
        | some old => exact (h.scopes hold (by simpa [hold] using hx)).add _
    · exact (h.scopes hscope hx).add _
  targets := fun l hl => (h.targets l hl).add _
  store := h.store.add hv
  conditions := h.conditions
  type := h.type

lemma write (h : m.Sound) {l : Location} {v : Value} (hv : v.IsNative) : (m.write l v).Sound where
  scopes := fun hscope hx => Store.live_write.mpr (h.scopes hscope hx)
  targets := fun k hk => Store.live_write.mpr (h.targets k hk)
  store := h.store.write hv
  conditions := h.conditions
  type := h.type

lemma setTargets (h : m.Sound) {targets : Stack Location}
    (ht : ∀ l ∈ targets, m.store.Live l) : { m with targets }.Sound :=
  ⟨h.scopes, ht, h.store, h.conditions, h.type⟩

lemma setConditions (h : m.Sound) {conditions : Stack Value}
    (hc : ∀ v ∈ conditions, v.IsNative) : { m with conditions }.Sound :=
  ⟨h.scopes, h.targets, h.store, hc, h.type⟩

lemma update (h : m.Sound) {f : Value → Except Fault Value}
    (hf : ∀ v w, f v = .ok w → w.IsNative) : (m.update f).machine.Sound := by
  unfold Machine.update
  split
  · exact h
  · next l v _ =>
      split
      · next w hw => exact h.write (hf v w hw)
      · exact h

lemma combineLiteral {literal : Text} {v w : Value} (h : m.combineLiteral literal v = .ok w) :
    w.IsNative := by
  unfold Machine.combineLiteral at h
  cases hread : Value.read v.type literal with
  | error e => simp [hread, bind, Except.bind] at h
  | ok operand =>
      rw [hread] at h
      exact Value.combine_isNative h

lemma combineVariable {name : Text} {v w : Value} (h : m.combineVariable name v = .ok w) :
    w.IsNative := by
  unfold Machine.combineVariable at h
  split at h
  · simp at h
  · next u _ =>
      cases hconvert : u.convert v.type with
      | error e => simp [hconvert, bind, Except.bind] at h
      | ok operand =>
          rw [hconvert] at h
          exact Value.combine_isNative h

lemma compareTop (h : m.Sound) (op : Text) : (m.compareTop op).machine.Sound := by
  unfold Machine.compareTop
  split
  · next right left rest hconditions =>
      have hrest : ∀ v ∈ rest, v.IsNative := fun v hv => h.conditions v (by simp [hconditions, hv])
      split
      · refine h.setConditions fun v hv => ?_
        rcases List.mem_cons.mp hv with rfl | hv
        · exact .bool _
        · exact hrest v hv
      · exact h.setConditions hrest
  · exact h.setConditions (by simp)

lemma branchTop (h : m.Sound) : m.branchTop.machine.Sound := by
  unfold Machine.branchTop
  split
  · exact h
  · next c rest hconditions =>
      have hrest : ∀ v ∈ rest, v.IsNative := fun v hv => h.conditions v (by simp [hconditions, hv])
      split <;> exact h.setConditions hrest

/-- A declaration never fails, because the type in force has a zero. -/
lemma execute_declare (h : m.Sound) (name : Text) : ∃ t : ValueType, m.type = t.name ∧
    m.execute (.declare name) = .next (m.declare name (.zero t)) := by
  obtain ⟨t, ht⟩ := h.type
  refine ⟨t, ht, ?_⟩
  rw [Machine.execute, ht, Value.zeroOf_name]

/-- **Every statement keeps a machine sound**, whether it succeeds or stops it. -/
theorem execute (h : m.Sound) (s : Statement) : (m.execute s).machine.Sound := by
  cases s with
  | scope name => exact h.enter name
  | type name =>
      simp only [Machine.execute]
      split
      · next zero hzero =>
          obtain ⟨t, ht, _⟩ := Value.zeroOf_eq_ok hzero
          exact ⟨h.scopes, h.targets, h.store, h.conditions, t, ht⟩
      · exact h
  | operator op => exact ⟨h.scopes, h.targets, h.store, h.conditions, h.type⟩
  | declare name =>
      simp only [Machine.execute]
      split
      · next zero hzero => exact h.declare name (Value.zeroOf_isNative hzero)
      · exact h
  | load name =>
      simp only [Machine.execute]
      split
      · next l hl =>
          refine h.setTargets fun k hk => ?_
          rcases List.mem_cons.mp hk with rfl | hk
          · exact h.locate? hl
          · exact h.targets k hk
      · exact h
  | clear literal => exact h.update fun v w hw => Value.zeroOf_isNative hw
  | push literal => exact h.update fun v w hw => combineLiteral hw
  | get name => exact h.update fun v w hw => combineVariable hw
  | endBlock => exact h
  | test operand =>
      simp only [Machine.execute]
      split
      · next v hv =>
          refine h.setConditions fun w hw => ?_
          rcases List.mem_cons.mp hw with rfl | hw
          · exact h.operand? hv
          · exact h.conditions w hw
      · exact h
  | compare op => exact h.compareTop op
  | branch => exact h.branchTop
  | beginBlock => exact h

end Sound

/-- **Every reachable machine is sound.** -/
theorem Reachable.sound {m : Machine} (h : Reachable m) : m.Sound :=
  h.invariant Sound.new fun _ s hm => hm.execute s

end Machine

end Scriptlet
