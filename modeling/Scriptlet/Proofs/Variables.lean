import Mathlib
import Scriptlet.Proofs.Reachable

/-!
# Variables and their places

A name stands for a place, and a place holds a value.  So two names could share a place, and a
write through a target could reach a variable that nobody named.  Here it is shown that neither
happens, whatever listings were run.

`Machine.Acts` says once what a statement can do to the variables: enter a scope, declare a name,
write to the target, or leave all as it is.  Everything else follows from it case by case.

* `Machine.Distinct` — no two names stand for one place; **`Reachable.distinct`** says that every
  reachable machine has this.  A declaration takes a place that no name stands for yet.
* `Machine.Touches` — the one variable that a statement can change, if there is one.
* `Machine.Retired` — a place in the store that no name stands for.  A name that is declared again
  leaves such a place behind, and no statement gives it back to a name.
* **`variables_unaliased_framed`** — the variables of reachable machines are distinct, a statement
  changes at most the one that it touches, and a target keeps to the variable that was loaded.
-/

namespace Scriptlet

/-! ## Reading a store that has changed -/

namespace Store

variable {s : Store} {l : Location}

lemma read?_add (s : Store) (v : Value) (k : Location) :
    (s.add v).read? k = if k = s.next then some v else s.read? k := by
  obtain ⟨i⟩ := k
  simp only [read?, add, next, Array.getElem?_push, Location.mk.injEq]

lemma read?_write (h : s.Live l) (v : Value) (k : Location) :
    (s.write l v).read? k = if k = l then some v else s.read? k := by
  obtain ⟨i⟩ := l
  obtain ⟨j⟩ := k
  have hi : i < s.cells.size := h
  simp [read?, write, Array.getElem?_setIfInBounds, hi, eq_comm]

lemma live_of_read? {v : Value} (h : s.read? l = some v) : s.Live l :=
  (Array.getElem?_eq_some_iff.mp h).1

lemma Live.ne_next (h : s.Live l) : l ≠ s.next := by
  rintro rfl
  simp [Live, next] at h

end Store

namespace Machine

/-! ## The place of a name -/

/-- The place that a name stands for in any scope. -/
def place? (m : Machine) (scope name : Text) : Option Location :=
  m.scopes[scope]?.bind (·[name]?)

lemma lookup?_eq (m : Machine) (scope name : Text) :
    m.lookup? scope name = (m.place? scope name).bind m.store.read? := by
  simp only [lookup?, place?]
  cases m.scopes[scope]? <;> rfl

lemma locate?_eq (m : Machine) (name : Text) : m.locate? name = m.place? m.scope name := by
  simp only [locate?, place?]
  cases m.scopes[m.scope]? <;> rfl

lemma value?_eq (m : Machine) (name : Text) : m.value? name = m.lookup? m.scope name := by
  rw [value?, locate?_eq, lookup?_eq]

lemma Sound.place? {m : Machine} (h : m.Sound) {scope name : Text} {l : Location}
    (hl : m.place? scope name = some l) : m.store.Live l := by
  obtain ⟨s, hs, hname⟩ := Option.bind_eq_some_iff.mp hl
  exact h.scopes hs hname

/-- A scope that is entered for the first time binds no name. -/
@[simp] lemma place?_enter (m : Machine) (entered scope name : Text) :
    (m.enter entered).place? scope name = m.place? scope name := by
  simp only [place?, enter, Std.TreeMap.getElem?_insertIfNew]
  split_ifs with h
  · obtain ⟨heq, hnew⟩ := h
    rw [Std.LawfulEqCmp.eq_of_compare heq] at hnew
    have hnone : m.scopes[scope]? = none := by simpa using hnew
    simp [hnone]
  · rfl

lemma place?_declare (m : Machine) (declared : Text) (v : Value) (scope name : Text) :
    (m.declare declared v).place? scope name
      = if scope = m.scope ∧ name = declared then some m.store.next
        else m.place? scope name := by
  simp only [place?, declare, Scope.declare, Std.TreeMap.getElem?_insert,
    Std.LawfulEqCmp.compare_eq_iff_eq]
  by_cases hscope : m.scope = scope
  · subst hscope
    simp only [if_true, Option.bind_some, Std.TreeMap.getElem?_insert,
      Std.LawfulEqCmp.compare_eq_iff_eq, true_and, eq_comm (a := declared)]
    split_ifs with hname
    · rfl
    · rw [Std.TreeMap.getD_eq_getD_getElem?]
      cases m.scopes[m.scope]? <;> simp
  · simp [hscope, Ne.symm hscope]

@[simp] lemma place?_write (m : Machine) (l : Location) (v : Value) (scope name : Text) :
    (m.write l v).place? scope name = m.place? scope name := rfl

@[simp] lemma lookup?_enter (m : Machine) (entered scope name : Text) :
    (m.enter entered).lookup? scope name = m.lookup? scope name := by
  rw [lookup?_eq, place?_enter, lookup?_eq]
  rfl

lemma lookup?_declare {m : Machine} (h : m.Sound) (declared : Text) (v : Value)
    (scope name : Text) :
    (m.declare declared v).lookup? scope name
      = if scope = m.scope ∧ name = declared then some v else m.lookup? scope name := by
  have hstore : (m.declare declared v).store = m.store.add v := rfl
  rw [lookup?_eq, place?_declare, hstore]
  split_ifs with hdeclared
  · simp [Store.read?_add]
  · rw [lookup?_eq]
    cases hplace : m.place? scope name with
    | none => rfl
    | some l => simp [Store.read?_add, (h.place? hplace).ne_next]

lemma lookup?_write {m : Machine} {l : Location} (h : m.store.Live l) (v : Value)
    (scope name : Text) :
    (m.write l v).lookup? scope name
      = if m.place? scope name = some l then some v else m.lookup? scope name := by
  have hstore : (m.write l v).store = m.store.write l v := rfl
  rw [lookup?_eq, place?_write, hstore, lookup?_eq]
  cases m.place? scope name with
  | none => rfl
  | some k => simp [Store.read?_write h]

/-! ## What can be seen of the variables -/

/-- The variables of a scope with their values; a scope that was never entered has none. -/
def valuesIn (m : Machine) (scope : Text) : Std.TreeMap Text Value :=
  (m.scopes[scope]?.getD ∅).filterMap fun _ l => m.store.read? l

lemma valuesIn_getElem? (m : Machine) (scope name : Text) :
    (m.valuesIn scope)[name]? = m.lookup? scope name := by
  rw [valuesIn, Std.TreeMap.getElem?_filterMap', lookup?]
  cases m.scopes[scope]? <;> simp

lemma bindings_eq_toList (m : Machine) (scope : Text) :
    m.bindings scope = (m.valuesIn scope).toList := by
  rw [valuesIn, Std.TreeMap.toList_filterMap, bindings, names?]
  cases hscope : m.scopes[scope]? with
  | none => simp
  | some s =>
      simp only [Option.map_some, Option.getD_some, Scope.names,
        ← Std.TreeMap.map_fst_toList_eq_keys, List.filterMap_map]
      apply List.filterMap_congr
      rintro ⟨name, l⟩ hmem
      simp [lookup?, hscope, Std.TreeMap.mem_toList_iff_getElem?_eq_some.mp hmem]

lemma mem_bindings {m : Machine} {scope name : Text} {v : Value} :
    (name, v) ∈ m.bindings scope ↔ m.lookup? scope name = some v := by
  rw [bindings_eq_toList, Std.TreeMap.mem_toList_iff_getElem?_eq_some, valuesIn_getElem?]

/-- Scopes in which every name has the same value show the same variables. -/
lemma bindings_congr {k m : Machine} {scope : Text}
    (h : ∀ name, k.lookup? scope name = m.lookup? scope name) :
    k.bindings scope = m.bindings scope := by
  rw [bindings_eq_toList, bindings_eq_toList]
  refine Std.TreeMap.Equiv.toList_eq (.of_forall_constGet?_eq fun name => ?_)
  rw [valuesIn_getElem?, valuesIn_getElem?, h]

lemma scopeNames_congr {k m : Machine} (h : ∀ name, name ∈ k.scopes ↔ name ∈ m.scopes) :
    k.scopeNames = m.scopeNames := by
  have hunits : (k.scopes.map fun _ _ => ()).Equiv (m.scopes.map fun _ _ => ()) :=
    .of_forall_mem_unit_iff fun name => by simpa using h name
  simpa [scopeNames, Std.TreeMap.keys_map] using hunits.keys_eq

/-- A dump shows the scopes and their variables, and nothing else. -/
lemma dump_congr {k m : Machine} (hscopes : k.scopeNames = m.scopeNames)
    (h : ∀ scope, k.bindings scope = m.bindings scope) : k.dump = m.dump := by
  simp only [dump, hscopes, h]

/-! ## What a statement does to the variables -/

/-- What a statement makes of the value of the target, if it is one that sets the target. -/
def updater? (m : Machine) : Statement → Option (Value → Except Fault Value)
  | .clear _ => some fun v => Value.zeroOf v.type
  | .push literal => some (m.combineLiteral literal)
  | .get name => some (m.combineVariable name)
  | _ => none

lemma execute_updater {m : Machine} {s : Statement} {f : Value → Except Fault Value}
    (h : m.updater? s = some f) : m.execute s = m.update f := by
  cases s <;> simp only [updater?, Option.some.injEq, reduceCtorEq] at h <;> (subst h; rfl)

section Updater

variable {m : Machine} {s : Statement} {f : Value → Except Fault Value} {l : Location}
  {v w : Value} {fault : Fault}

lemma execute_set (hs : m.updater? s = some f) (htarget : m.target? = some (l, v))
    (hf : f v = .ok w) : m.execute s = .next (m.write l w) := by
  simp only [execute_updater hs, update, htarget, hf]

lemma execute_set_fault (hs : m.updater? s = some f) (htarget : m.target? = some (l, v))
    (hf : f v = .error fault) : m.execute s = .stop m fault := by
  simp only [execute_updater hs, update, htarget, hf]

end Updater

/-- **All that a statement can do to the variables**, with the machine that it leaves. -/
inductive Acts (m : Machine) (s : Statement) : Machine → Prop where
  | enter {name : Text} : s = .scope name → Acts m s (m.enter name)
  | declare {name : Text} {v : Value} : s = .declare name → Value.zeroOf m.type = .ok v →
      Acts m s (m.declare name v)
  | write {f : Value → Except Fault Value} {l : Location} {v w : Value} :
      m.updater? s = some f → m.target? = some (l, v) → f v = .ok w → Acts m s (m.write l w)
  | keep {after : Machine} : after.scopes = m.scopes → after.store = m.store → Acts m s after

lemma update_acts {m : Machine} {s : Statement} {f : Value → Except Fault Value}
    (h : m.updater? s = some f) : Acts m s (m.execute s).machine := by
  cases htarget : m.target? with
  | none =>
      have heffect : m.execute s = .stop m .noTarget := by
        simp only [execute_updater h, update, htarget]
      rw [heffect]
      exact .keep rfl rfl
  | some target =>
      obtain ⟨l, v⟩ := target
      cases hf : f v with
      | ok w =>
          rw [execute_set h htarget hf]
          exact .write h htarget hf
      | error fault =>
          rw [execute_set_fault h htarget hf]
          exact .keep rfl rfl

theorem execute_acts (m : Machine) (s : Statement) : Acts m s (m.execute s).machine := by
  cases s with
  | scope name => exact .enter rfl
  | declare name =>
      simp only [execute]
      split
      · next zero hzero => exact .declare rfl hzero
      · exact .keep rfl rfl
  | clear literal => exact update_acts rfl
  | push literal => exact update_acts rfl
  | get name => exact update_acts rfl
  | type name =>
      simp only [execute]
      split <;> exact .keep rfl rfl
  | load name =>
      simp only [execute]
      split <;> exact .keep rfl rfl
  | test operand =>
      simp only [execute]
      split <;> exact .keep rfl rfl
  | compare op =>
      simp only [execute, compareTop]
      split
      · split <;> exact .keep rfl rfl
      · exact .keep rfl rfl
  | branch =>
      simp only [execute, branchTop]
      split
      · exact .keep rfl rfl
      · split <;> exact .keep rfl rfl
  | operator op => exact .keep rfl rfl
  | endBlock => exact .keep rfl rfl
  | beginBlock => exact .keep rfl rfl

/-- A target has a place, which holds its value. -/
lemma target?_eq_some {m : Machine} {l : Location} {v : Value} :
    m.target? = some (l, v) ↔ m.targets.top? = some l ∧ m.store.read? l = some v := by
  simp only [target?]
  cases m.targets.top? with
  | none => simp
  | some k =>
      simp only [Option.map_eq_some_iff, Prod.mk.injEq, Option.some.injEq]
      constructor
      · rintro ⟨w, hw, rfl, rfl⟩
        exact ⟨rfl, hw⟩
      · rintro ⟨rfl, hv⟩
        exact ⟨v, hv, rfl, rfl⟩

lemma Sound.target_live {m : Machine} (h : m.Sound) {l : Location}
    (hl : m.targets.top? = some l) : m.store.Live l :=
  h.targets l (List.mem_of_mem_head? hl)

/-! ## Distinct names stand for distinct places -/

/-- No two names stand for one place. -/
def Distinct (m : Machine) : Prop :=
  ∀ ⦃scope name scope' name' : Text⦄ ⦃l : Location⦄, m.place? scope name = some l →
    m.place? scope' name' = some l → scope = scope' ∧ name = name'

/-- A declaration takes a place of its own, because the places of all names are in the store. -/
lemma Distinct.declare {m : Machine} (h : m.Distinct) (hm : m.Sound) (name : Text) (v : Value) :
    (m.declare name v).Distinct := by
  intro scope x scope' x' l hx hx'
  rw [place?_declare] at hx hx'
  split_ifs at hx hx' with hnew hnew'
  · exact ⟨hnew.1.trans hnew'.1.symm, hnew.2.trans hnew'.2.symm⟩
  · exact absurd (Option.some.inj hx).symm (hm.place? hx').ne_next
  · exact absurd (Option.some.inj hx').symm (hm.place? hx).ne_next
  · exact h hx hx'

lemma Distinct.acts {m after : Machine} (h : m.Distinct) (hm : m.Sound) {s : Statement}
    (hacts : Acts m s after) : after.Distinct := by
  cases hacts with
  | enter _ =>
      intro scope x scope' x' l hx hx'
      rw [place?_enter] at hx hx'
      exact h hx hx'
  | declare _ _ => exact h.declare hm _ _
  | write _ _ _ => exact h
  | keep hscopes _ =>
      intro scope x scope' x' l hx hx'
      rw [place?, hscopes] at hx hx'
      exact h hx hx'

/-- **In every reachable machine distinct names stand for distinct places.** -/
theorem Reachable.distinct {m : Machine} (h : m.Reachable) : m.Distinct := by
  have hboth : m.Sound ∧ m.Distinct := by
    refine h.invariant (P := fun m => m.Sound ∧ m.Distinct) ⟨.new, ?_⟩ ?_
    · intro scope x scope' x' l hx
      obtain ⟨s, hs, hname⟩ := Option.bind_eq_some_iff.mp hx
      simp only [Machine.new, Std.TreeMap.getElem?_insert, Std.TreeMap.getElem?_emptyc] at hs
      split_ifs at hs
      rw [← Option.some.inj hs] at hname
      simp at hname
    · rintro m s ⟨hsound, hdistinct⟩
      exact ⟨hsound.execute s, hdistinct.acts hsound (execute_acts m s)⟩
  exact hboth.2

/-! ## What a statement touches -/

/-- The statement can change this variable: a declaration the name that it declares, and what sets
the target the variable that the target stands for now. -/
def Touches (m : Machine) (s : Statement) (scope name : Text) : Prop :=
  match s with
  | .declare declared => scope = m.scope ∧ name = declared
  | .clear _ | .push _ | .get _ => ∃ l, m.targets.top? = some l ∧ m.place? scope name = some l
  | _ => False

lemma touches_of_updater {m : Machine} {s : Statement} {f : Value → Except Fault Value}
    (h : m.updater? s = some f) (scope name : Text) :
    m.Touches s scope name ↔ ∃ l, m.targets.top? = some l ∧ m.place? scope name = some l := by
  cases s <;> simp only [updater?, reduceCtorEq] at h <;> rfl

/-- There is at most one such variable. -/
lemma Touches.unique {m : Machine} (h : m.Distinct) {s : Statement}
    {scope name scope' name' : Text} (h₁ : m.Touches s scope name)
    (h₂ : m.Touches s scope' name') : scope = scope' ∧ name = name' := by
  have htarget (h₁ : ∃ l, m.targets.top? = some l ∧ m.place? scope name = some l)
      (h₂ : ∃ l, m.targets.top? = some l ∧ m.place? scope' name' = some l) :
      scope = scope' ∧ name = name' := by
    obtain ⟨l, hl, hx⟩ := h₁
    obtain ⟨l', hl', hx'⟩ := h₂
    obtain rfl : l = l' := Option.some.inj (hl.symm.trans hl')
    exact h hx hx'
  cases s with
  | declare declared => exact ⟨h₁.1.trans h₂.1.symm, h₁.2.trans h₂.2.symm⟩
  | clear literal => exact htarget h₁ h₂
  | push literal => exact htarget h₁ h₂
  | get x => exact htarget h₁ h₂
  | _ => exact h₁.elim

/-- **A statement changes no variable but the one that it touches.** -/
theorem lookup?_of_not_touches {m after : Machine} (hm : m.Sound) {s : Statement}
    (hacts : Acts m s after) {scope name : Text} (h : ¬ m.Touches s scope name) :
    after.lookup? scope name = m.lookup? scope name := by
  cases hacts with
  | enter _ => exact lookup?_enter m _ scope name
  | declare hs _ =>
      subst hs
      rw [lookup?_declare hm]
      exact if_neg h
  | write hf htarget _ =>
      obtain ⟨htop, _⟩ := target?_eq_some.mp htarget
      rw [lookup?_write (hm.target_live htop), if_neg]
      exact fun hplace => h ((touches_of_updater hf scope name).mpr ⟨_, htop, hplace⟩)
  | keep hscopes hstore => rw [lookup?_eq, lookup?_eq, place?, place?, hscopes, hstore]

/-! ## Places without a name -/

/-- The place is in the store, but no name stands for it. -/
structure Retired (m : Machine) (l : Location) : Prop where
  live : m.store.Live l
  unnamed : ∀ scope name, m.place? scope name ≠ some l

/-- No statement gives a name to a place that has none. -/
lemma Retired.acts {m after : Machine} {l : Location} (h : m.Retired l) {s : Statement}
    (hacts : Acts m s after) : after.Retired l := by
  cases hacts with
  | enter _ => exact ⟨h.live, fun scope x => by rw [place?_enter]; exact h.unnamed scope x⟩
  | declare _ _ =>
      refine ⟨h.live.add _, fun scope x => ?_⟩
      rw [place?_declare]
      split_ifs
      · exact fun heq => h.live.ne_next (Option.some.inj heq).symm
      · exact h.unnamed scope x
  | write _ _ _ => exact ⟨Store.live_write.mpr h.live, h.unnamed⟩
  | keep hscopes hstore =>
      refine ⟨hstore ▸ h.live, fun scope x => ?_⟩
      rw [place?, hscopes]
      exact h.unnamed scope x

/-- A declaration leaves the place behind that the name stood for. -/
lemma Distinct.retired_declare {m : Machine} (h : m.Distinct) (hm : m.Sound) {name : Text}
    {l : Location} (hl : m.place? m.scope name = some l) (v : Value) :
    (m.declare name v).Retired l := by
  have hlive : m.store.Live l := hm.place? hl
  refine ⟨hlive.add _, fun scope x => ?_⟩
  rw [place?_declare]
  split_ifs with hx
  · exact fun heq => hlive.ne_next (Option.some.inj heq).symm
  · exact fun heq => hx (h heq hl)

/-- From one statement to the next, a name stands for its place as before, or the place is
without a name. -/
lemma Distinct.place?_acts {m after : Machine} (h : m.Distinct) (hm : m.Sound)
    {scope name : Text} {l : Location} (hl : m.place? scope name = some l) {s : Statement}
    (hacts : Acts m s after) : after.place? scope name = some l ∨ after.Retired l := by
  cases hacts with
  | enter _ => exact .inl (by rw [place?_enter]; exact hl)
  | @declare declared v _ _ =>
      by_cases hx : scope = m.scope ∧ name = declared
      · obtain ⟨rfl, rfl⟩ := hx
        exact .inr (h.retired_declare hm hl v)
      · exact .inl (by rw [place?_declare, if_neg hx]; exact hl)
  | write _ _ _ => exact .inl hl
  | keep hscopes _ => exact .inl (by rw [place?, hscopes]; exact hl)

/-- **A name keeps its place until the place is retired for good.** -/
theorem Reachable.place?_leads {m later : Machine} (h : m.Reachable) {scope name : Text}
    {l : Location} (hl : m.place? scope name = some l) (hlater : m.Leads later) :
    later.place? scope name = some l ∨ later.Retired l := by
  have hboth : later.Reachable ∧ (later.place? scope name = some l ∨ later.Retired l) := by
    refine hlater.invariant (P := fun k => k.Reachable ∧
      (k.place? scope name = some l ∨ k.Retired l)) ⟨h, .inl hl⟩ ?_
    rintro k s ⟨hk, hplace | hretired⟩
    · exact ⟨hk.execute s, hk.distinct.place?_acts hk.sound hplace (execute_acts k s)⟩
    · exact ⟨hk.execute s, .inr (hretired.acts (execute_acts k s))⟩
  exact hboth.2

lemma Retired.leads {m later : Machine} {l : Location} (h : m.Retired l)
    (hlater : m.Leads later) : later.Retired l :=
  hlater.invariant (P := (·.Retired l)) h fun k s hk => hk.acts (execute_acts k s)

/-- Setting a target that stands for no variable changes none. -/
lemma Retired.lookup?_execute {m : Machine} (hm : m.Sound) {l : Location} (h : m.Retired l)
    (htop : m.targets.top? = some l) {s : Statement} {f : Value → Except Fault Value}
    (hs : m.updater? s = some f) (scope name : Text) :
    (m.execute s).machine.lookup? scope name = m.lookup? scope name := by
  refine lookup?_of_not_touches hm (execute_acts m s) fun htouches => ?_
  obtain ⟨k, hk, hplace⟩ := (touches_of_updater hs scope name).mp htouches
  obtain rfl : k = l := Option.some.inj (hk.symm.trans htop)
  exact h.unnamed scope name hplace

/-! ## Loaded variables -/

/-- What a load leaves: the place of the name is the target, and the rest is as it was. -/
lemma execute_load {m after : Machine} {name : Text} (h : m.execute (.load name) = .next after) :
    ∃ l, m.place? m.scope name = some l ∧ after = { m with targets := m.targets.push l } := by
  simp only [execute] at h
  split at h
  · next l hl =>
      rw [locate?_eq] at hl
      exact ⟨l, hl, (Effect.next.inj h).symm⟩
  · simp at h

/-- **A target keeps to the variable that was loaded**, whatever scope is in force when it is
set. -/
lemma lookup?_set_loaded {m : Machine} (hm : m.Sound) (hdistinct : m.Distinct)
    {scope name : Text} {l : Location} {v : Value} (hl : m.place? scope name = some l)
    (htop : m.targets.top? = some l) (hv : m.lookup? scope name = some v) {s : Statement}
    {f : Value → Except Fault Value} (hs : m.updater? s = some f) (scope' name' : Text) :
    (m.execute s).machine.lookup? scope' name'
      = if scope' = scope ∧ name' = name then some ((f v).toOption.getD v)
        else m.lookup? scope' name' := by
  have hread : m.store.read? l = some v := by simpa [lookup?_eq, hl] using hv
  have htarget : m.target? = some (l, v) := target?_eq_some.mpr ⟨htop, hread⟩
  -- the variable is the only one with that place
  have hplace : m.place? scope' name' = some l ↔ scope' = scope ∧ name' = name :=
    ⟨fun h => hdistinct h hl, by rintro ⟨rfl, rfl⟩; exact hl⟩
  cases hf : f v with
  | ok w =>
      rw [execute_set hs htarget hf]
      simp only [Effect.machine, lookup?_write (hm.target_live htop), hplace]
      rfl
  | error fault =>
      rw [execute_set_fault hs htarget hf]
      split_ifs with hx
      · obtain ⟨rfl, rfl⟩ := hx
        exact hv
      · rfl

/-- **No aliasing, and at most one variable changes.**  On every reachable machine

* distinct names, in one scope or in two, stand for distinct places;
* a statement changes at most the one variable that it touches;
* a target whose name was declared again, in its scope and at any time since the load, can be set
  without a change to any variable;
* a scope that is entered between a load and what sets the target does not redirect the write: the
  variable that was loaded gets the value, and no other changes. -/
theorem variables_unaliased_framed (m : Machine) (h : m.Reachable) :
    (∀ scope name scope' name' l, m.place? scope name = some l →
      m.place? scope' name' = some l → scope = scope' ∧ name = name') ∧
    (∀ s scope name, ¬ m.Touches s scope name →
      (m.execute s).machine.lookup? scope name = m.lookup? scope name) ∧
    (∀ s scope name scope' name', m.Touches s scope name → m.Touches s scope' name' →
      scope = scope' ∧ name = name') ∧
    (∀ name loaded l again later, m.execute (.load name) = .next loaded →
      loaded.targets.top? = some l → loaded.Leads again → again.scope = m.scope →
      (again.execute (.declare name)).machine.Leads later → later.targets.top? = some l →
      ∀ s f, later.updater? s = some f → ∀ scope x,
        (later.execute s).machine.lookup? scope x = later.lookup? scope x) ∧
    (∀ name loaded v other s f, m.execute (.load name) = .next loaded →
      m.lookup? m.scope name = some v →
      (loaded.execute (.scope other)).machine.updater? s = some f → ∀ scope x,
        ((loaded.execute (.scope other)).machine.execute s).machine.lookup? scope x
          = if scope = m.scope ∧ x = name then some ((f v).toOption.getD v)
            else m.lookup? scope x) := by
  refine ⟨fun _ _ _ _ _ hx hx' => h.distinct hx hx',
    fun s _ _ hs => lookup?_of_not_touches h.sound (execute_acts m s) hs,
    fun _ _ _ _ _ h₁ h₂ => h₁.unique h.distinct h₂, ?_, ?_⟩
  · intro name loaded l again later hload htop hagain hscope hlater htop' s f hs
    obtain ⟨k, hk, rfl⟩ := execute_load hload
    obtain rfl : k = l := Option.some.inj htop
    have hloaded : ({ m with targets := m.targets.push k } : Machine).Reachable := by
      have := h.execute (.load name)
      rwa [hload] at this
    have hreach : again.Reachable := hloaded.leads hagain
    -- the name may have lost its place before the declaration; it has lost it behind it
    have hretired : (again.execute (.declare name)).machine.Retired k := by
      rcases hloaded.place?_leads hk hagain with hplace | hretired
      · obtain ⟨t, -, hdeclare⟩ := hreach.sound.execute_declare name
        rw [hdeclare]
        exact hreach.distinct.retired_declare hreach.sound (hscope ▸ hplace) _
      · exact hretired.acts (execute_acts again _)
    have hsound : later.Sound := ((hreach.execute _).leads hlater).sound
    exact (hretired.leads hlater).lookup?_execute hsound htop' hs
  · intro name loaded v other s f hload hv hs scope x
    obtain ⟨l, hl, rfl⟩ := execute_load hload
    have hentered : ({ m with targets := m.targets.push l } : Machine).execute (.scope other)
        |>.machine.Reachable := by
      have := (h.execute (.load name)).execute (.scope other)
      rwa [hload] at this
    have hmoved (scope x : Text) :
        (({ m with targets := m.targets.push l } : Machine).enter other).lookup? scope x
          = m.lookup? scope x := lookup?_enter _ other scope x
    have hplace : (({ m with targets := m.targets.push l } : Machine).enter other).place?
        m.scope name = some l := by rw [place?_enter]; exact hl
    have := lookup?_set_loaded hentered.sound hentered.distinct hplace rfl
      ((hmoved m.scope name).trans hv) hs scope x
    rw [this]
    exact if_congr Iff.rfl rfl (hmoved scope x)

/-- Two variables of one name in two scopes; the one that was loaded is set from the other scope,
or declared again before it is set. -/
theorem variables_unaliased_framed_two_scopes :
    let m := (Machine.new.run [.declare "x", .scope "inner", .declare "x", .scope "global"]).machine
    let loaded : Machine := { m with targets := m.targets.push ⟨0⟩ }
    let inner := (loaded.execute (.scope "inner")).machine
    let again := (loaded.execute (.declare "x")).machine
    m.Reachable ∧ m.place? "global" "x" = some ⟨0⟩ ∧ m.place? "inner" "x" = some ⟨1⟩ ∧
      m.execute (.load "x") = .next loaded ∧
      (∀ scope x, (inner.execute (.push "3")).machine.lookup? scope x
        = if scope = "global" ∧ x = "x" then some (.int 3) else m.lookup? scope x) ∧
      ∀ scope x, (again.execute (.push "3")).machine.lookup? scope x = again.lookup? scope x := by
  intro m loaded inner again
  have hm : m.Reachable := .run _ .new
  have hlocate : m.locate? "x" = some ⟨0⟩ := by decide +kernel
  have hload : m.execute (.load "x") = .next loaded := by simp only [execute, hlocate, loaded]
  have hscope : m.scope = "global" := by decide +kernel
  have hvalue : m.lookup? m.scope "x" = some (.int 0) := by decide +kernel
  have hthree : (inner.combineLiteral "3" (.int 0)).toOption.getD (.int 0) = .int 3 := by
    decide +kernel
  obtain ⟨_, _, _, hredeclared, hswitched⟩ := variables_unaliased_framed m hm
  refine ⟨hm, by decide +kernel, by decide +kernel, hload, fun scope x => ?_, ?_⟩
  · rw [hswitched "x" loaded (.int 0) "inner" (.push "3") _ hload hvalue rfl scope x, hscope,
      hthree]
  · exact hredeclared "x" loaded ⟨0⟩ loaded again hload rfl .refl rfl .refl rfl (.push "3") _ rfl

end Machine

end Scriptlet
