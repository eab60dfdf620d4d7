import Mathlib
import Scriptlet.Proofs.Safety

/-!
# What a program takes from the machine it runs on

A machine comes to a program with a history: scopes, modes, targets and conditions that earlier
runs have left, some of which failed half way.  A compiled program sees nothing of it but the
global variables, and it writes nowhere else.

Two runs of one program are compared, on a machine `k` and on a machine `m`.  The global variables
of `m` are those of `k`, laid over some more that only `m` has:

* `Confined` — one machine works in the global scope and leaves the other scopes alone.
* `Overlaid` — both do, in the same modes, and the global variables of `m` are those of `k` over
  `base`.
* `Walk.Paired` — two walks end alike or stop at one statement for one reason, with the exception
  of a name that `k` lacks and `base` has.

Statement by statement, and then by induction on the program (`Derives.walk_paired`), the variables
stay overlaid; `run_paired` says so of runs.  Both main results are cases of it:

* **`run_insulated`** — with an empty `base`, equal global variables lead to equal outcomes.
* **`run_over_any_machine`** — with the new machine for `k`, what succeeds from scratch succeeds
  anywhere, and does over what it finds what it does from scratch.
-/

namespace Scriptlet

open Machine

namespace Machine

/-! ## One machine: everything happens in the global scope -/

/-- No statement gives up a scope. -/
lemma Acts.mem_scopes {m after : Machine} {s : Statement} (h : Acts m s after) {name : Text}
    (hname : name ∈ m.scopes) : name ∈ after.scopes := by
  cases h with
  | enter _ => exact Std.TreeMap.mem_insertIfNew.mpr (.inr hname)
  | declare _ => exact Std.TreeMap.mem_insert.mpr (.inr hname)
  | write _ _ _ => exact hname
  | keep hscopes _ => rwa [hscopes]

lemma Reachable.global_mem {m : Machine} (h : m.Reachable) : globalScope ∈ m.scopes := by
  refine h.invariant (P := fun m => globalScope ∈ m.scopes) ?_ ?_
  · exact Std.TreeMap.mem_insert_self
  · intro m s hm
    exact (execute_acts m s).mem_scopes hm

/-- The machine works in the global scope, and outside of it all is as on the machine `start`. -/
structure Confined (start m : Machine) : Prop where
  reachable : m.Reachable
  scope : m.scope = globalScope
  scopes : ∀ name, name ∈ m.scopes ↔ name ∈ start.scopes
  elsewhere : ∀ scope name, scope ≠ globalScope → m.lookup? scope name = start.lookup? scope name

namespace Confined

variable {start m after : Machine}

lemma enter (h : m.Reachable) : Confined m (m.enter globalScope) where
  reachable := h.execute (.scope globalScope)
  scope := rfl
  scopes := by
    intro name
    simp only [Machine.enter, Std.TreeMap.mem_insertIfNew, Std.LawfulEqCmp.compare_eq_iff_eq]
    refine ⟨?_, .inr⟩
    rintro (rfl | hname)
    · exact h.global_mem
    · exact hname
  elsewhere := by
    intro scope name _
    exact lookup?_enter m globalScope scope name

/-- A statement that stays in the global scope and touches no variable outside of it. -/
lemma execute (h : Confined start m) {s : Statement} (hafter : (m.execute s).machine = after)
    (hscope : after.scope = globalScope)
    (htouches : ∀ scope name, m.Touches s scope name → scope = globalScope) :
    Confined start after := by
  have hacts := execute_acts m s
  rw [hafter] at hacts
  have hglobal : globalScope ∈ m.scopes := h.reachable.global_mem
  refine ⟨hafter ▸ h.reachable.execute s, hscope, fun name => ?_, fun scope name hne => ?_⟩
  · rw [← h.scopes]
    refine ⟨fun hname => ?_, hacts.mem_scopes⟩
    cases hacts with
    | @enter entered _ =>
        rcases Std.TreeMap.mem_insertIfNew.mp hname with heq | hname
        · have hentered : entered = globalScope := hscope
          rwa [← Std.LawfulEqCmp.eq_of_compare heq, hentered]
        · exact hname
    | declare _ =>
        rcases Std.TreeMap.mem_insert.mp hname with heq | hname
        · rwa [← Std.LawfulEqCmp.eq_of_compare heq, h.scope]
        · exact hname
    | write _ _ _ => exact hname
    | keep hscopes _ => rwa [hscopes] at hname
  · rw [← h.elsewhere scope name hne]
    exact lookup?_of_not_touches h.reachable.sound hacts fun ht => hne (htouches scope name ht)

end Confined

/-! ## Two machines: variables laid over others -/

/-- A machine lacks a name that `base` has. -/
def Missing (base : Text → Option Value) : Fault → Prop
  | .undefinedVariable name => base name ≠ none
  | _ => False

/-- Both machines work in the global scope in the same modes, and the global variables of `m` are
those of `k` over `base`. -/
structure Overlaid (base : Text → Option Value) (k₀ m₀ k m : Machine) : Prop where
  left : Confined k₀ k
  right : Confined m₀ m
  type : m.type = k.type
  operator : m.operator = k.operator
  values : ∀ name, m.lookup? globalScope name = (k.lookup? globalScope name).or (base name)

/-- The same with `shared` on top of the conditions that each of them had. -/
structure Poised (base : Text → Option Value) (k₀ m₀ : Machine) (shared : Stack Value)
    (k m : Machine) : Prop extends Overlaid base k₀ m₀ k m where
  left_conditions : k.conditions = shared ++ k₀.conditions
  right_conditions : m.conditions = shared ++ m₀.conditions

/-- The target is the global variable of this name. -/
def Targets (m : Machine) (name : Text) : Prop :=
  ∃ l, m.place? globalScope name = some l ∧ m.targets.top? = some l

/-- The same between two items, with the variable of one name as the target of both. -/
structure Aimed (base : Text → Option Value) (k₀ m₀ : Machine) (name : Text) (k m : Machine) : Prop
    extends Poised base k₀ m₀ [] k m where
  left_target : k.Targets name
  right_target : m.Targets name

/-- **Two walks that go together.**  Both end, in machines with `Q`; or both stop with one error, in
machines with `P`; or the first stops with an excuse. -/
inductive Walk.Paired (excuse : Fault → Prop) (P Q : Machine → Machine → Prop) (w w' : Walk) :
    Prop where
  | ends : w.run.error = none → w'.run.error = none → Q w.run.machine w'.run.machine →
      Paired excuse P Q w w'
  | stops {e : RuntimeError} : w.run.error = some e → w'.run.error = some e →
      P w.run.machine w'.run.machine → Paired excuse P Q w w'
  | excused {e : RuntimeError} : w.run.error = some e → excuse e.fault → Paired excuse P Q w w'

namespace Walk.Paired

variable {excuse : Fault → Prop} {P Q R : Machine → Machine → Prop} {w w' : Walk}
  {k m k' m' : Machine} {index : Nat}

lemma step (h : Q k' m') :
    Paired excuse P Q (Walk.step index k k') (Walk.step index m m') :=
  .ends rfl rfl h

lemma stop {s : Statement} {fault : Fault} (h : P k' m') :
    Paired excuse P Q (Walk.stop index k k' (some s) fault)
      (Walk.stop index m m' (some s) fault) :=
  .stops rfl rfl h

lemma andThen {f g : Machine → Walk} (hw : Paired excuse P Q w w')
    (hnext : ∀ k m, Q k m → Paired excuse P R (f k) (g m)) :
    Paired excuse P R (w.andThen f) (w'.andThen g) := by
  obtain ⟨visited, machine, error⟩ := w
  obtain ⟨visited', machine', error'⟩ := w'
  cases hw with
  | ends hnone hnone' hq =>
      dsimp only at hnone hnone'
      subst hnone hnone'
      cases hnext machine machine' hq with
      | ends h h' hr => exact .ends h h' hr
      | stops h h' hp => exact .stops h h' hp
      | excused h he => exact .excused h he
  | stops hsome hsome' hp =>
      dsimp only at hsome hsome'
      subst hsome hsome'
      exact .stops rfl rfl hp
  | excused hsome he =>
      dsimp only at hsome
      subst hsome
      exact .excused rfl he

end Walk.Paired

/-- What each of some statements keeps, all of them keep in a row. -/
lemma performAll_paired {excuse : Fault → Prop} {P Q : Machine → Machine → Prop}
    {l : List Statement}
    (hl : ∀ s ∈ l, ∀ k m index, Q k m →
      Walk.Paired excuse P Q (k.perform index s) (m.perform index s))
    {k m : Machine} (h : Q k m) (index : Nat) :
    Walk.Paired excuse P Q (k.performAll index l) (m.performAll index l) := by
  induction l generalizing k m index with
  | nil => exact .ends rfl rfl h
  | cons s l ih =>
      refine (hl s (by simp) k m index h).andThen fun k m hkm => ?_
      exact ih (fun u hu => hl u (by simp [hu])) hkm (index + 1)

/-! ## The statements, each where the compiler emits it -/

section Statements

variable {base : Text → Option Value} {k₀ m₀ k m : Machine} {shared : Stack Value} {name : Text}

/-- A statement that touches no variable, and leaves both machines in the same modes. -/
lemma Overlaid.keep (h : Overlaid base k₀ m₀ k m) {s : Statement} {k' m' : Machine}
    (hs : ∀ (m : Machine) scope name, ¬ m.Touches s scope name)
    (hk : (k.execute s).machine = k') (hm : (m.execute s).machine = m')
    (hscope : k'.scope = k.scope) (hscope' : m'.scope = m.scope) (htype : m'.type = k'.type)
    (hoperator : m'.operator = k'.operator) : Overlaid base k₀ m₀ k' m' := by
  have hvalues {start m after : Machine} (h : Confined start m)
      (hafter : (m.execute s).machine = after) (name : Text) :
      after.lookup? globalScope name = m.lookup? globalScope name := by
    rw [← hafter]
    exact lookup?_of_not_touches h.reachable.sound (execute_acts m s) (hs m _ name)
  refine ⟨h.left.execute hk (hscope.trans h.left.scope) fun scope name ht => ?_,
    h.right.execute hm (hscope'.trans h.right.scope) fun scope name ht => ?_, htype, hoperator,
    fun name => ?_⟩
  · exact absurd ht (hs k scope name)
  · exact absurd ht (hs m scope name)
  · rw [hvalues h.left hk, hvalues h.right hm, h.values]

/-- The two walks go together, from machines that are overlaid. -/
abbrev Together (base : Text → Option Value) (k₀ m₀ : Machine) (Q : Machine → Machine → Prop)
    (w w' : Walk) : Prop :=
  Walk.Paired (Missing base) (Overlaid base k₀ m₀) Q w w'

lemma Poised.typeMarker (h : Poised base k₀ m₀ shared k m) (index : Nat) (name : Text) :
    Together base k₀ m₀ (Poised base k₀ m₀ shared) (k.perform index (.type name))
      (m.perform index (.type name)) := by
  cases hzero : Value.zeroOf name with
  | error fault =>
      have hs (m : Machine) : m.execute (.type name) = .stop m fault := by
        simp only [execute, hzero]
      rw [perform, perform, hs, hs]
      exact .stop h.toOverlaid
  | ok zero =>
      have hs (m : Machine) : m.execute (.type name) = .next { m with type := name } := by
        simp only [execute, hzero]
      rw [perform, perform, hs, hs]
      have hover : Overlaid base k₀ m₀ { k with type := name } { m with type := name } :=
        h.keep (s := .type name) (fun _ _ _ ht => ht) (by rw [hs]; rfl) (by rw [hs]; rfl) rfl rfl
          rfl h.operator
      exact .step ⟨hover, h.left_conditions, h.right_conditions⟩

lemma Aimed.operatorMarker (h : Aimed base k₀ m₀ name k m) (index : Nat) (operator : Text) :
    Together base k₀ m₀ (Aimed base k₀ m₀ name) (k.perform index (.operator operator))
      (m.perform index (.operator operator)) := by
  have hover : Overlaid base k₀ m₀ { k with operator } { m with operator } :=
    h.keep (s := .operator operator) (fun _ _ _ ht => ht) rfl rfl rfl rfl h.type rfl
  exact .step ⟨⟨hover, h.left_conditions, h.right_conditions⟩, h.left_target, h.right_target⟩

lemma Poised.declare (h : Poised base k₀ m₀ shared k m) (index : Nat) (name : Text) :
    Together base k₀ m₀ (fun k m => Poised base k₀ m₀ shared k m ∧
        (∃ l, k.place? globalScope name = some l) ∧ ∃ l, m.place? globalScope name = some l)
      (k.perform index (.declare name)) (m.perform index (.declare name)) := by
  have htouches {start m : Machine} (h : Confined start m) (scope x : Text)
      (ht : m.Touches (.declare name) scope x) : scope = globalScope := ht.1.trans h.scope
  have hplace {start m : Machine} (h : Confined start m) (v : Value) :
      (m.declare name v).place? globalScope name = some m.store.next := by
    rw [place?_declare, if_pos ⟨h.scope.symm, rfl⟩]
  -- the type in force on both machines is the same, and so is its zero
  obtain ⟨t, ht, hk⟩ := h.left.reachable.sound.execute_declare name
  have hm : m.execute (.declare name) = .next (m.declare name (.zero t)) := by
    rw [execute, h.type, ht, Value.zeroOf_name]
  rw [perform, perform, hk, hm]
  have hover : Overlaid base k₀ m₀ (k.declare name (.zero t)) (m.declare name (.zero t)) := by
    refine ⟨h.left.execute (s := .declare name) (by rw [hk]; rfl) h.left.scope (htouches h.left),
      h.right.execute (s := .declare name) (by rw [hm]; rfl) h.right.scope (htouches h.right),
      h.type, h.operator, fun x => ?_⟩
    rw [lookup?_declare h.left.reachable.sound, lookup?_declare h.right.reachable.sound,
      h.left.scope, h.right.scope, h.values]
    split_ifs <;> rfl
  exact .step ⟨⟨hover, h.left_conditions, h.right_conditions⟩, ⟨_, hplace h.left _⟩,
    ⟨_, hplace h.right _⟩⟩

/-- A load finds the variable that was declared right before it, on both machines. -/
lemma Poised.load (h : Poised base k₀ m₀ [] k m) (index : Nat) {l l' : Location}
    (hl : k.place? globalScope name = some l) (hl' : m.place? globalScope name = some l') :
    Together base k₀ m₀ (Aimed base k₀ m₀ name) (k.perform index (.load name))
      (m.perform index (.load name)) := by
  have hload {start m : Machine} {l : Location} (h : Confined start m)
      (hl : m.place? globalScope name = some l) :
      m.execute (.load name) = .next { m with targets := m.targets.push l } := by
    simp only [execute, locate?_eq, h.scope, hl]
  have hk := hload h.left hl
  have hm := hload h.right hl'
  rw [perform, perform, hk, hm]
  have hover : Overlaid base k₀ m₀ { k with targets := k.targets.push l }
      { m with targets := m.targets.push l' } :=
    h.keep (s := .load name) (fun _ _ _ ht => ht) (by rw [hk]; rfl) (by rw [hm]; rfl) rfl rfl
      h.type h.operator
  exact .step ⟨⟨hover, h.left_conditions, h.right_conditions⟩, ⟨l, hl, rfl⟩, ⟨l', hl', rfl⟩⟩

/-- The target of both machines has one value. -/
lemma Aimed.value (h : Aimed base k₀ m₀ name k m) :
    ∃ v, k.lookup? globalScope name = some v ∧ m.lookup? globalScope name = some v := by
  obtain ⟨l, hl, _⟩ := h.left_target
  obtain ⟨v, hv⟩ := (h.left.reachable.sound.place? hl).read?
  have hk : k.lookup? globalScope name = some v := by rw [lookup?_eq, hl, Option.bind_some, hv]
  exact ⟨v, hk, by rw [h.values, hk, Option.some_or]⟩

/-- What sets the target changes the store and nothing else. -/
lemma exists_store_of_updater {m : Machine} {s : Statement} {f : Value → Except Fault Value}
    (hs : m.updater? s = some f) : ∃ store, (m.execute s).machine = { m with store } := by
  rw [execute_updater hs, Machine.update]
  split
  · exact ⟨m.store, rfl⟩
  · next l v _ =>
      split
      · next w _ => exact ⟨m.store.write l w, rfl⟩
      · exact ⟨m.store, rfl⟩

/-- What sets a target in the global scope touches that variable. -/
lemma Targets.scope_of_touches {m : Machine} (h : m.Targets name) (hm : m.Reachable)
    {s : Statement} {f : Value → Except Fault Value} (hs : m.updater? s = some f) {scope x : Text}
    (ht : m.Touches s scope x) : scope = globalScope := by
  obtain ⟨l, hl, htop⟩ := h
  obtain ⟨j, hj, hx⟩ := (touches_of_updater hs scope x).mp ht
  obtain rfl : j = l := Option.some.inj (hj.symm.trans htop)
  exact (hm.distinct hx hl).1

/-- Setting the targets to the same leaves the variables overlaid. -/
lemma Aimed.overlaid_execute (h : Aimed base k₀ m₀ name k m) {s : Statement}
    {f g : Value → Except Fault Value} (hf : k.updater? s = some f) (hg : m.updater? s = some g)
    {v : Value} (hv : k.lookup? globalScope name = some v)
    (hv' : m.lookup? globalScope name = some v) (heq : f v = g v) :
    Overlaid base k₀ m₀ (k.execute s).machine (m.execute s).machine := by
  obtain ⟨store, hk⟩ := exists_store_of_updater hf
  obtain ⟨store', hm⟩ := exists_store_of_updater hg
  have hscope : (k.execute s).machine.scope = globalScope := by rw [hk]; exact h.left.scope
  have hscope' : (m.execute s).machine.scope = globalScope := by rw [hm]; exact h.right.scope
  refine ⟨h.left.execute rfl hscope fun _ _ => h.left_target.scope_of_touches h.left.reachable hf,
    h.right.execute rfl hscope' fun _ _ => h.right_target.scope_of_touches h.right.reachable hg,
    ?_, ?_, fun x => ?_⟩
  · rw [hk, hm]; exact h.type
  · rw [hk, hm]; exact h.operator
  · obtain ⟨l, hl, htop⟩ := h.left_target
    obtain ⟨l', hl', htop'⟩ := h.right_target
    rw [lookup?_set_loaded h.left.reachable.sound h.left.reachable.distinct hl htop hv hf,
      lookup?_set_loaded h.right.reachable.sound h.right.reachable.distinct hl' htop' hv' hg,
      heq, h.values]
    split_ifs <;> rfl

/-- **What sets the target does the same on both machines**, if it makes the same of one value. -/
lemma Aimed.update (h : Aimed base k₀ m₀ name k m) (index : Nat) {s : Statement}
    {f g : Value → Except Fault Value} (hf : k.updater? s = some f) (hg : m.updater? s = some g)
    (hfg : ∀ v, f v = g v ∨ ∃ fault, f v = .error fault ∧ Missing base fault) :
    Together base k₀ m₀ (Aimed base k₀ m₀ name) (k.perform index s) (m.perform index s) := by
  obtain ⟨v, hv, hv'⟩ := h.value
  obtain ⟨l, hl, htop⟩ := h.left_target
  obtain ⟨l', hl', htop'⟩ := h.right_target
  have htarget : k.target? = some (l, v) :=
    target?_eq_some.mpr ⟨htop, by rwa [lookup?_eq, hl] at hv⟩
  have htarget' : m.target? = some (l', v) :=
    target?_eq_some.mpr ⟨htop', by rwa [lookup?_eq, hl'] at hv'⟩
  rcases hfg v with heq | ⟨fault, hfault, hmissing⟩
  · have hover := h.overlaid_execute hf hg hv hv' heq
    cases hresult : g v with
    | ok w =>
        have hk := execute_set hf htarget (heq.trans hresult)
        have hm := execute_set hg htarget' hresult
        rw [hk, hm] at hover
        rw [perform, perform, hk, hm]
        exact .step ⟨⟨hover, h.left_conditions, h.right_conditions⟩, ⟨l, hl, htop⟩,
          ⟨l', hl', htop'⟩⟩
    | error fault =>
        rw [perform, perform, execute_set_fault hf htarget (heq.trans hresult),
          execute_set_fault hg htarget' hresult]
        exact .stop h.toOverlaid
  · rw [perform, execute_set_fault hf htarget hfault]
    exact .excused rfl hmissing

/-- A name is read alike on both machines, or only `base` has it. -/
lemma Overlaid.value? (h : Overlaid base k₀ m₀ k m) (x : Text) :
    m.value? x = k.value? x ∨ k.value? x = none ∧ base x ≠ none := by
  rw [value?_eq, value?_eq, h.left.scope, h.right.scope, h.values]
  cases hk : k.lookup? globalScope x with
  | some v => exact .inl rfl
  | none =>
      cases hbase : base x with
      | none => exact .inl rfl
      | some w => exact .inr ⟨rfl, by simp⟩

lemma Aimed.push (h : Aimed base k₀ m₀ name k m) (index : Nat) (literal : Text) :
    Together base k₀ m₀ (Aimed base k₀ m₀ name) (k.perform index (.push literal))
      (m.perform index (.push literal)) := by
  refine h.update index rfl rfl fun v => .inl ?_
  rw [combineLiteral, combineLiteral, h.operator]

lemma Aimed.get (h : Aimed base k₀ m₀ name k m) (index : Nat) (x : Text) :
    Together base k₀ m₀ (Aimed base k₀ m₀ name) (k.perform index (.get x))
      (m.perform index (.get x)) := by
  refine h.update index rfl rfl fun v => ?_
  rcases h.value? x with heq | ⟨hnone, hbase⟩
  · left
    rw [combineVariable, combineVariable, heq, h.operator]
  · right
    exact ⟨.undefinedVariable x, by simp only [combineVariable, hnone], hbase⟩

/-- A test puts one value on both stacks of conditions. -/
lemma Poised.test (h : Poised base k₀ m₀ shared k m) (index : Nat) (operand : Text) :
    Together base k₀ m₀ (fun k m => ∃ v, Poised base k₀ m₀ (v :: shared) k m)
      (k.perform index (.test operand)) (m.perform index (.test operand)) := by
  have hoperand : m.operand? operand = k.operand? operand ∨
      k.operand? operand = none ∧ base operand ≠ none := by
    unfold operand?
    cases Value.infer? operand with
    | some v => exact .inl rfl
    | none => exact h.value? operand
  rcases hoperand with heq | ⟨hnone, hbase⟩
  · cases hv : k.operand? operand with
    | some v =>
        have hk : k.execute (.test operand)
            = .next { k with conditions := k.conditions.push v } := by simp only [execute, hv]
        have hm : m.execute (.test operand)
            = .next { m with conditions := m.conditions.push v } := by
          simp only [execute, heq, hv]
        have hover : Overlaid base k₀ m₀ { k with conditions := k.conditions.push v }
            { m with conditions := m.conditions.push v } :=
          h.keep (s := .test operand) (fun _ _ _ ht => ht) (by rw [hk]; rfl) (by rw [hm]; rfl)
            rfl rfl h.type h.operator
        rw [perform, perform, hk, hm]
        exact .step ⟨v, hover, congrArg (v :: ·) h.left_conditions,
          congrArg (v :: ·) h.right_conditions⟩
    | none =>
        have hk : k.execute (.test operand) = .stop k (.undefinedVariable operand) := by
          simp only [execute, hv]
        have hm : m.execute (.test operand) = .stop m (.undefinedVariable operand) := by
          simp only [execute, heq, hv]
        rw [perform, perform, hk, hm]
        exact .stop h.toOverlaid
  · have hk : k.execute (.test operand) = .stop k (.undefinedVariable operand) := by
      simp only [execute, hnone]
    rw [perform, hk]
    exact .excused rfl hbase

/-- A comparison finds the same two values on both stacks. -/
lemma Poised.compare {left right : Value}
    (h : Poised base k₀ m₀ (right :: left :: shared) k m) (index : Nat) (op : Text) :
    Together base k₀ m₀ (fun k m => ∃ v, Poised base k₀ m₀ (v :: shared) k m)
      (k.perform index (.compare op)) (m.perform index (.compare op)) := by
  have hover {ck cm : Stack Value} {s : Statement}
      (hs : ∀ (m : Machine) scope name, ¬ m.Touches s scope name)
      (hk : (k.execute s).machine = { k with conditions := ck })
      (hm : (m.execute s).machine = { m with conditions := cm }) :
      Overlaid base k₀ m₀ { k with conditions := ck } { m with conditions := cm } :=
    h.keep hs hk hm rfl rfl h.type h.operator
  cases hresult : Value.compare op left right with
  | ok b =>
      have hcompare {m : Machine} {rest : Stack Value}
          (hm : m.conditions = right :: left :: rest) :
          m.execute (.compare op) = .next { m with conditions := .bool b :: rest } := by
        simp only [execute, compareTop, hm, hresult]
      have hk := hcompare h.left_conditions
      have hm := hcompare h.right_conditions
      rw [perform, perform, hk, hm]
      exact .step ⟨.bool b, hover (s := .compare op) (fun _ _ _ ht => ht) (by rw [hk]; rfl)
        (by rw [hm]; rfl), rfl, rfl⟩
  | error fault =>
      have hcompare {m : Machine} {rest : Stack Value}
          (hm : m.conditions = right :: left :: rest) :
          m.execute (.compare op) = .stop { m with conditions := rest } fault := by
        simp only [execute, compareTop, hm, hresult]
      have hk := hcompare h.left_conditions
      have hm := hcompare h.right_conditions
      rw [perform, perform, hk, hm]
      exact .stop (hover (s := .compare op) (fun _ _ _ ht => ht) (by rw [hk]; rfl)
        (by rw [hm]; rfl))

/-- A branch takes its condition from both stacks. -/
lemma Poised.below {v : Value} (h : Poised base k₀ m₀ (v :: shared) k m) :
    Poised base k₀ m₀ shared { k with conditions := shared ++ k₀.conditions }
      { m with conditions := shared ++ m₀.conditions } := by
  have hbranch {m : Machine} {rest : Stack Value} (hm : m.conditions = v :: rest) :
      (m.execute .branch).machine = { m with conditions := rest } := by
    simp only [execute, branchTop, hm]
    split <;> rfl
  exact ⟨h.keep (s := .branch) (fun _ _ _ ht => ht) (hbranch h.left_conditions)
    (hbranch h.right_conditions) rfl rfl h.type h.operator, rfl, rfl⟩

lemma Poised.typeMarkers (h : Poised base k₀ m₀ shared k m) (modes : Modes) (index : Nat)
    (type : Text) :
    Together base k₀ m₀ (Poised base k₀ m₀ shared) (k.performAll index (modes.typeMarker type))
      (m.performAll index (modes.typeMarker type)) := by
  refine performAll_paired (fun s hs k m index hkm => ?_) h index
  obtain rfl := Modes.mem_typeMarker hs
  exact hkm.typeMarker index type

lemma Aimed.restart (h : Aimed base k₀ m₀ name k m) (modes : Modes) (index : Nat) :
    Together base k₀ m₀ (Aimed base k₀ m₀ name) (k.performAll index modes.restartMarker)
      (m.performAll index modes.restartMarker) := by
  refine performAll_paired (fun s hs k m index hkm => ?_) h index
  obtain rfl := Modes.mem_restartMarker hs
  exact hkm.operatorMarker index "+"

/-- The statements of an expression do the same on both machines. -/
lemma Aimed.expression (h : Aimed base k₀ m₀ name k m) (modes : Modes) (value : List Token)
    (index : Nat) :
    Together base k₀ m₀ (Aimed base k₀ m₀ name) (k.performAll index (expressionCode modes value))
      (m.performAll index (expressionCode modes value)) := by
  refine performAll_paired (fun s hs k m index hkm => ?_) h index
  obtain ⟨t, -, rfl | rfl | rfl⟩ := mem_expressionCode hs
  · exact hkm.push index _
  · exact hkm.get index _
  · exact hkm.operatorMarker index _

/-- The tests of a head leave one value more on both stacks of conditions. -/
lemma Poised.tests (h : Poised base k₀ m₀ shared k m) {head : List Token} {front : List Statement}
    (hhead : Condition.head head = .ok front) (index : Nat) :
    Together base k₀ m₀ (fun k m => ∃ v, Poised base k₀ m₀ (v :: shared) k m)
      (k.performAll index (Condition.tests head)) (m.performAll index (Condition.tests head)) := by
  rcases Condition.head_cases hhead with ⟨a, rfl, -⟩ | ⟨a, comparison, b, rfl, -⟩
  · exact (h.test index a.literal).andThen fun k m hkm => .ends rfl rfl hkm
  · refine (h.test index a.literal).andThen ?_
    rintro k m ⟨left, hkm⟩
    refine (hkm.test _ b.literal).andThen ?_
    rintro k m ⟨right, hkm⟩
    exact (hkm.compare _ comparison.literal).andThen fun k m hkm => .ends rfl rfl hkm

end Statements

/-- Behind the three markers of every listing, nothing but the variables and the conditions is left
of what the machines were. -/
lemma Poised.start {base : Text → Option Value} {k m : Machine} (hk : k.Reachable)
    (hm : m.Reachable)
    (hvalues : ∀ name, m.lookup? globalScope name = (k.lookup? globalScope name).or (base name)) :
    Together base k m (Poised base k m []) (k.performAll 0 seedMarkers)
      (m.performAll 0 seedMarkers) := by
  have hconfined {m : Machine} (hm : m.Reachable) :
      Confined m { m.enter globalScope with type := "int", operator := "+" } := by
    have htype : Confined m { m.enter globalScope with type := "int" } :=
      (Confined.enter hm).execute (s := .type "int") rfl rfl fun _ _ ht => ht.elim
    exact htype.execute (s := .operator "+") rfl rfl fun _ _ ht => ht.elim
  refine .ends rfl rfl ⟨⟨hconfined hk, hconfined hm, rfl, rfl, fun name => ?_⟩, rfl, rfl⟩
  exact (lookup?_enter m globalScope globalScope name).trans ((hvalues name).trans
    (congrArg (·.or (base name)) (lookup?_enter k globalScope globalScope name).symm))

end Machine

/-! ## Programs -/

section Programs

variable {base : Text → Option Value} {k₀ m₀ k m : Machine}

lemma Tree.sequence_paired {excuse : Fault → Prop} {P Q R : Machine → Machine → Prop}
    {l : List Statement} {rest : Tree} {index : Nat}
    (hl : Walk.Paired excuse P Q (k.performAll index l) (m.performAll index l))
    (hrest : ∀ k m index, Q k m → Walk.Paired excuse P R (rest.walk k index) (rest.walk m index)) :
    Walk.Paired excuse P R ((sequence l rest).walk k index) ((sequence l rest).walk m index) := by
  rw [walk_sequence, walk_sequence]
  exact hl.andThen fun k m hkm => hrest k m _ hkm

/-- A choice is made alike on both machines. -/
lemma Tree.choice_paired {condition : List Statement} {body rest : Tree} {index : Nat}
    (hcondition : Together base k₀ m₀ (fun k m => ∃ v, Poised base k₀ m₀ [v] k m)
      (k.performAll index condition) (m.performAll index condition))
    (hbody : ∀ k m index, Poised base k₀ m₀ [] k m →
      Together base k₀ m₀ (Poised base k₀ m₀ []) (body.walk k index) (body.walk m index))
    (hrest : ∀ k m index, Poised base k₀ m₀ [] k m →
      Together base k₀ m₀ (Poised base k₀ m₀ []) (rest.walk k index) (rest.walk m index)) :
    Together base k₀ m₀ (Poised base k₀ m₀ []) ((choice condition body rest).walk k index)
      ((choice condition body rest).walk m index) := by
  simp only [walk]
  refine hcondition.andThen ?_
  rintro k m ⟨v, hkm⟩
  rw [hkm.left_conditions, hkm.right_conditions]
  refine Walk.Paired.andThen (.step hkm.below) fun k m hkm => ?_
  split
  · refine (hbody k m _ hkm).andThen fun k m hkm => ?_
    exact Walk.Paired.andThen (.step hkm) fun k m hkm => hrest k m _ hkm
  · exact hrest k m _ hkm

/-- **A program goes the same way on both machines.** -/
theorem Derives.walk_paired {strict : Bool} {ts : List Token} {p : Program}
    (h : Derives ⟨.standard, strict⟩ ts p) (modes : Modes) (k m : Machine) (index : Nat)
    (hkm : Poised base k₀ m₀ [] k m) :
    Together base k₀ m₀ (Poised base k₀ m₀ []) ((p.tree modes).walk k index)
      ((p.tree modes).walk m index) := by
  induction h generalizing modes k m index with
  | done => exact .ends rfl rfl hkm
  | type _ _ ih => exact Tree.sequence_paired (hkm.typeMarkers modes index _) (ih _)
  | declare _ _ ih =>
      exact (hkm.declare index _).andThen fun k m hkm => ih modes k m _ hkm.1
  | assign _ _ _ _ _ ih =>
      -- the variable is declared, so it becomes the target of both machines
      refine (hkm.declare index _).andThen ?_
      rintro k m ⟨hkm, ⟨l, hl⟩, l', hl'⟩
      refine (hkm.load _ hl hl').andThen fun k m hkm => ?_
      refine (hkm.update _ rfl rfl fun v => .inl rfl).andThen fun k m hkm => ?_
      refine Tree.sequence_paired (hkm.restart modes _) fun k m index hkm => ?_
      exact Tree.sequence_paired (hkm.expression _ _ index) fun k m index hkm =>
        ih _ k m index hkm.toPoised
  | ignored _ _ _ _ ih => exact ih modes k m index hkm
  | block _ hsome _ hfront _ _ _ _ ihbody ihrest =>
      rw [Keywords.standard_handler hsome] at hfront
      exact Tree.choice_paired (hkm.tests hfront index) (ihbody modes) (ihrest _)

end Programs

/-- **A listing runs alike on machines with overlaid variables**, unless the first of them lacks a
name that only the second has. -/
theorem run_paired {strict : Bool} {ts : List Token} {listing : List Statement}
    (h : (Dialect.compile ⟨.standard, strict⟩ ts).listing = .ok listing)
    (base : Text → Option Value) {k m : Machine} (hk : k.Reachable) (hm : m.Reachable)
    (hvalues : ∀ name, m.lookup? globalScope name = (k.lookup? globalScope name).or (base name)) :
    (k.run listing).error = (m.run listing).error ∧
        Overlaid base k m (k.run listing).machine (m.run listing).machine ∨
      ∃ e, (k.run listing).error = some e ∧ Missing base e.fault := by
  obtain ⟨p, hp, rfl⟩ := listing_eq_ok_iff.mp h
  have hpaired : Together base k m (Poised base k m []) (p.wholeTree.walk k 0)
      (p.wholeTree.walk m 0) :=
    Tree.sequence_paired (Poised.start hk hm hvalues) (hp.walk_paired _)
  rw [← hp.walk_eq k, ← hp.walk_eq m] at hpaired
  simp only [← walk_run]
  cases hpaired with
  | ends hnone hnone' hkm => exact .inl ⟨hnone.trans hnone'.symm, hkm.toOverlaid⟩
  | stops hsome hsome' hkm => exact .inl ⟨hsome.trans hsome'.symm, hkm⟩
  | excused hsome hmissing => exact .inr ⟨_, hsome, hmissing⟩

/-! ## What is seen of the two machines -/

namespace Machine.Confined

variable {start m : Machine}

lemma scopeNames (h : Confined start m) : m.scopeNames = start.scopeNames :=
  scopeNames_congr h.scopes

lemma bindings (h : Confined start m) {scope : Text} (hscope : scope ≠ globalScope) :
    m.bindings scope = start.bindings scope :=
  bindings_congr fun name => h.elsewhere scope name hscope

end Machine.Confined

/-- **A listing is insulated from what earlier runs have left.**  Take the listing of any tokens,
and two machines that runs of any listings lead to.  If the same global variables have the same
values, then both runs end alike, with success or with the same error at the same statement, and
leave the same global variables with the same values.  All other scopes of both machines stay as
they were. -/
theorem run_insulated (strict : Bool) (ts : List Token) (listing : List Statement)
    (h : (Dialect.compile ⟨.standard, strict⟩ ts).listing = .ok listing) (k m : Machine)
    (hk : k.Reachable) (hm : m.Reachable)
    (hglobal : k.bindings globalScope = m.bindings globalScope) :
    (k.run listing).error = (m.run listing).error ∧
    (k.run listing).machine.bindings globalScope = (m.run listing).machine.bindings globalScope ∧
    ((k.run listing).machine.scopeNames = k.scopeNames ∧
      ∀ scope, scope ≠ globalScope →
        (k.run listing).machine.bindings scope = k.bindings scope) ∧
    (m.run listing).machine.scopeNames = m.scopeNames ∧
      ∀ scope, scope ≠ globalScope →
        (m.run listing).machine.bindings scope = m.bindings scope := by
  have hvalues (name : Text) :
      m.lookup? globalScope name = (k.lookup? globalScope name).or none := by
    rw [Option.or_none]
    refine Option.ext fun v => ?_
    rw [← mem_bindings, ← mem_bindings, hglobal]
  rcases run_paired h (fun _ => none) hk hm hvalues with
    ⟨herror, hover⟩ | ⟨e, _, hmissing⟩
  · refine ⟨herror, bindings_congr fun name => ?_,
      ⟨hover.left.scopeNames, fun scope hscope => hover.left.bindings hscope⟩,
      hover.right.scopeNames, fun scope hscope => hover.right.bindings hscope⟩
    rw [hover.values, Option.or_none]
  · -- an empty base has no name that the first machine could lack
    exfalso
    unfold Missing at hmissing
    split at hmissing
    · exact hmissing rfl
    · exact hmissing

/-- A machine that has only run a declaration, and one that a failed run has left in another scope,
with other modes, a target and a condition.  The program divides by zero in a block. -/
theorem run_insulated_division :
    let k := (Machine.new.run [.declare "a"]).machine
    let m := (Machine.new.run [.declare "a", .scope "inner", .declare "a", .load "a", .type "bool",
      .operator "*", .test "1", .get "b"]).machine
    let ts : List Token :=
      [⟨.identifier, "b", 0, 0⟩, ⟨.equals, "=", 0, 0⟩, ⟨.number, "2", 0, 0⟩,
        ⟨.terminator, ";", 0, 0⟩, ⟨.keyword, "if", 0, 0⟩, ⟨.identifier, "b", 0, 0⟩,
        ⟨.openDelim, "\x7b", 0, 0⟩, ⟨.identifier, "c", 0, 0⟩, ⟨.equals, "=", 0, 0⟩,
        ⟨.identifier, "b", 0, 0⟩, ⟨.binaryOperator, "/", 0, 0⟩, ⟨.identifier, "a", 0, 0⟩,
        ⟨.terminator, ";", 0, 0⟩, ⟨.closeDelim, "\x7d", 0, 0⟩]
    let listing : List Statement :=
      [.scope "global", .type "int", .operator "+", .declare "b", .load "b", .clear "0", .push "2",
        .test "b", .branch, .declare "c", .load "c", .clear "0", .get "b", .operator "/", .get "a",
        .endBlock]
    (Dialect.compile ⟨.standard, true⟩ ts).listing = .ok listing ∧ k.Reachable ∧ m.Reachable ∧
      k.bindings globalScope = m.bindings globalScope ∧
      m.scope = "inner" ∧ m.type = "bool" ∧ m.operator = "*" ∧ m.targets = [⟨1⟩] ∧
      m.conditions = [.int 1] ∧
      (m.run listing).error = some ⟨14, some (.get "a"), .divisionByZero⟩ ∧
      (m.run listing).machine.bindings "global"
        = ([("a", .int 0), ("b", .int 2), ("c", .int 2)] : List (Text × Value)) ∧
      (m.run listing).machine.bindings "inner" = m.bindings "inner" := by
  intro k m ts listing
  have hcompile : (Dialect.compile ⟨.standard, true⟩ ts).listing = .ok listing := by decide +kernel
  have hglobal : k.bindings globalScope = m.bindings globalScope := by decide +kernel
  obtain ⟨herror, hbindings, _, _, hothers⟩ :=
    run_insulated true ts listing hcompile k m (.run _ .new) (.run _ .new) hglobal
  refine ⟨hcompile, .run _ .new, .run _ .new, hglobal, by decide +kernel, by decide +kernel,
    by decide +kernel, by decide +kernel, by decide +kernel, ?_, ?_,
    hothers "inner" (by decide +kernel)⟩
  · rw [← herror]
    decide +kernel
  · rw [show ("global" : Text) = globalScope from rfl, ← hbindings]
    decide +kernel

/-- **What succeeds from scratch succeeds anywhere, and twice is as good as once.**  Let the listing
of a source succeed on a new machine.  On every machine that runs of any listings lead to, it
succeeds as well; the global variables are then those that it leaves on a new machine, over those
that were there before, and all other scopes are as they were.  A second run changes nothing. -/
theorem run_over_any_machine (strict : Bool) (source : Text) (listing : List Statement)
    (h : Dialect.listing ⟨.standard, strict⟩ source = .ok listing)
    (hnew : (Machine.new.run listing).error = none) (m : Machine) (hm : m.Reachable) :
    (m.run listing).error = none ∧
    (∀ name, (m.run listing).machine.lookup? globalScope name
      = ((Machine.new.run listing).machine.lookup? globalScope name).or
          (m.lookup? globalScope name)) ∧
    ((m.run listing).machine.scopeNames = m.scopeNames ∧
      ∀ scope, scope ≠ globalScope →
        (m.run listing).machine.bindings scope = m.bindings scope) ∧
    ((m.run listing).machine.run listing).error = none ∧
      ((m.run listing).machine.run listing).machine.dump = (m.run listing).machine.dump := by
  obtain ⟨ts, -, hcompile⟩ := Dialect.listing_eq_ok h
  -- the new machine has no variables, so those of any machine are laid under them
  have hover {m : Machine} (hm : m.Reachable) : (m.run listing).error = none ∧
      Overlaid (m.lookup? globalScope) .new m (Machine.new.run listing).machine
        (m.run listing).machine := by
    have hvalues (name : Text) : m.lookup? globalScope name
        = (Machine.new.lookup? globalScope name).or (m.lookup? globalScope name) := by
      simp [Machine.lookup?, Machine.new]
    rcases run_paired hcompile _ .new hm hvalues with ⟨herror, hover⟩ | ⟨e, herror, _⟩
    · exact ⟨herror.symm.trans hnew, hover⟩
    · simp [hnew] at herror
  have hafter : (m.run listing).machine.Reachable := .run (listing.map some) hm
  obtain ⟨herror, hfirst⟩ := hover hm
  obtain ⟨herror', hsecond⟩ := hover hafter
  refine ⟨herror, hfirst.values, ⟨hfirst.right.scopeNames, fun scope hscope =>
    hfirst.right.bindings hscope⟩, herror', dump_congr hsecond.right.scopeNames fun scope => ?_⟩
  by_cases hscope : scope = globalScope
  · -- what the second run lays over the variables is there already
    subst hscope
    refine bindings_congr fun name => ?_
    have hvalues := hfirst.values name
    rw [hsecond.values]
    cases hname : (Machine.new.run listing).machine.lookup? globalScope name with
    | none => rfl
    | some v => rw [Option.some_or]; rw [hname, Option.some_or] at hvalues; exact hvalues.symm
  · exact hsecond.right.bindings hscope

/-- A run that failed has left a global `x` of another type, a `z`, an `x` in a second scope, and
other modes. -/
theorem run_over_any_machine_after_failure :
    let source : Text := "x = 4; if x > 3 \x7b bool y = true; \x7d"
    let m := (Machine.new.run [.type "bool", .declare "x", .declare "z", .scope "inner",
      .declare "x", .load "x", .operator "*", .test "z"]).machine
    ∃ listing, Dialect.listing ⟨.standard, false⟩ source = .ok listing ∧
      (Machine.new.run listing).error = none ∧ m.Reachable ∧
      m.bindings "global" = ([("x", .bool false), ("z", .bool false)] : List (Text × Value)) ∧
      (m.run listing).error = none ∧
      (m.run listing).machine.lookup? "global" "x" = some (.int 4) ∧
      (m.run listing).machine.lookup? "global" "y" = some (.bool true) ∧
      (m.run listing).machine.lookup? "global" "z" = some (.bool false) ∧
      (m.run listing).machine.bindings "inner" = m.bindings "inner" ∧
      ((m.run listing).machine.run listing).machine.dump = (m.run listing).machine.dump := by
  intro source m
  let listing : List Statement :=
    [.scope "global", .type "int", .operator "+", .declare "x", .load "x", .clear "0", .push "4",
      .test "x", .test "3", .compare ">", .branch, .type "bool", .declare "y", .load "y",
      .clear "false", .push "true", .endBlock]
  have hlisting : Dialect.listing ⟨.standard, false⟩ source = .ok listing := by decide +kernel
  have hnew : (Machine.new.run listing).error = none := by decide +kernel
  obtain ⟨herror, hvalues, ⟨_, hothers⟩, _, hdump⟩ :=
    run_over_any_machine false source listing hlisting hnew m (.run _ .new)
  refine ⟨listing, hlisting, hnew, .run _ .new, by decide +kernel, herror,
    (hvalues "x").trans ?_, (hvalues "y").trans ?_, (hvalues "z").trans ?_,
    hothers "inner" (by decide +kernel), hdump⟩ <;> decide +kernel

end Scriptlet
