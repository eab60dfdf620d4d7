import Mathlib
import Scriptlet.Proofs.BlockStructure
import Scriptlet.Proofs.Scanned
import Scriptlet.Proofs.Variables

/-!
# Compiled programs do not go wrong structurally

A listing that the compiler made can still fail, but only for reasons that its author can see in
the source: a name without a variable, a literal or an operator that does not fit a type, a
division by zero.  It never finds a stack empty, a block unclosed or a type unknown, whatever
earlier runs have left on the machine.

The proof reads like one in a program logic.  `Walk.Ends w Q` says that a walk ends in a machine
with `Q` or stops for an ordinary reason, and it composes along `Walk.andThen`.  Each statement has
a lemma for the situation in which the compiler emits it:

* `Ready c` — a sound machine with the conditions `c`: the situation between two items,
* `Loaded c` — the same with a target: the situation inside an assignment.

A program leads from `Ready c` to `Ready c` (`Derives.walk_ends`), by induction on its derivation.
-/

namespace Scriptlet

open Machine

/-- The statements that can fail in a listing that the compiler made. -/
def Statement.canFail : Statement → Bool
  | push _ | get _ | test _ | compare _ => true
  | _ => false

/-- The faults that lie in what a program says, not in how its listing is built. -/
def Fault.isOrdinary : Fault → Bool
  | undefinedVariable _ | divisionByZero | unsupportedOperator _ _ | badLiteral _ _
  | cannotUse _ _ | cannotCompare _ _ => true
  | _ => false

/-- The error is an ordinary fault of a statement that can fail. -/
def RuntimeError.Ordinary (e : RuntimeError) : Prop :=
  (∃ s, e.statement = some s ∧ s.canFail) ∧ e.fault.isOrdinary

/-! ## Faults of operators and literals -/

namespace Value

lemma result?_fault {op : Operator} {a b : Value} {fault : Fault}
    (h : result? op a b = some (.error fault)) : fault.isOrdinary := by
  unfold result? at h
  split at h <;> (try split_ifs at h) <;>
    simp only [Option.some.injEq, Except.error.injEq, reduceCtorEq] at h <;> (subst h; rfl)

lemma combine_fault {op : Text} {a b : Value} {fault : Fault} (h : combine op a b = .error fault) :
    fault.isOrdinary := by
  unfold combine at h
  split at h
  · next result hresult =>
      obtain ⟨operator, _, hop⟩ := Option.bind_eq_some_iff.mp hresult
      rw [h] at hop
      exact result?_fault hop
  · rw [← Except.error.inj h]; rfl

lemma convert_fault {v : Value} {type : Text} {fault : Fault} (h : v.convert type = .error fault) :
    fault.isOrdinary := by
  unfold convert at h
  split_ifs at h
  rw [← Except.error.inj h]; rfl

lemma compareNumbers_fault {op : Text} {answer : Comparison → Bool} {fault : Fault}
    (h : compareNumbers op answer = .error fault) : fault.isOrdinary := by
  unfold compareNumbers at h
  split at h
  · simp at h
  · rw [← Except.error.inj h]; rfl

lemma compare_fault {op : Text} {a b : Value} {fault : Fault} (h : compare op a b = .error fault) :
    fault.isOrdinary := by
  unfold compare at h
  split_ifs at h
  · split at h
    · simp at h
    · rw [← Except.error.inj h]; rfl
  · rw [← Except.error.inj h]; rfl
  · exact compareNumbers_fault h
  · exact compareNumbers_fault h

/-- A literal that does not fit a type of the language is a bad literal. -/
lemma read_fault {v : Value} (hv : v.IsNative) {literal : Text} {fault : Fault}
    (h : read v.type literal = .error fault) : fault.isOrdinary := by
  obtain ⟨t, ht⟩ := exists_type_of_isNative hv
  rw [read, ht, ValueType.ofName?_name] at h
  dsimp only at h
  split at h
  · simp at h
  · rw [← Except.error.inj h]; rfl

end Value

/-- Setting a target to what follows from a value of the language fails for ordinary reasons, and
clearing it never fails. -/
lemma Machine.updater_fault {m : Machine} {s : Statement} {f : Value → Except Fault Value}
    (hs : m.updater? s = some f) {v : Value} (hv : v.IsNative) {fault : Fault}
    (h : f v = .error fault) : s.canFail ∧ fault.isOrdinary := by
  cases s <;> simp only [updater?, Option.some.injEq, reduceCtorEq] at hs <;> subst hs
  case clear literal =>
    obtain ⟨t, ht⟩ := Value.exists_type_of_isNative hv
    simp [ht] at h
  case push literal =>
    refine ⟨rfl, ?_⟩
    unfold combineLiteral at h
    cases hread : Value.read v.type literal with
    | error e =>
        simp only [hread, bind, Except.bind, Except.error.injEq] at h
        exact h ▸ Value.read_fault hv hread
    | ok operand =>
        rw [hread] at h
        exact Value.combine_fault h
  case get name =>
    refine ⟨rfl, ?_⟩
    unfold combineVariable at h
    split at h
    · rw [← Except.error.inj h]; rfl
    · next u _ =>
        cases hconvert : u.convert v.type with
        | error e =>
            simp only [hconvert, bind, Except.bind, Except.error.injEq] at h
            exact h ▸ Value.convert_fault hconvert
        | ok operand =>
            rw [hconvert] at h
            exact Value.combine_fault h

/-! ## Walks that stop for ordinary reasons only -/

namespace Machine

/-- The walk ends in a machine with the property, or stops for an ordinary reason. -/
def Walk.Ends (w : Walk) (Q : Machine → Prop) : Prop :=
  match w.run.error with
  | none => Q w.run.machine
  | some e => e.Ordinary

namespace Walk.Ends

variable {w : Walk} {P Q : Machine → Prop} {m after : Machine} {index : Nat}

lemma step (h : Q after) : (Walk.step index m after).Ends Q := h

lemma stop {s : Statement} {fault : Fault} (hs : s.canFail) (hf : fault.isOrdinary) :
    (Walk.stop index m after (some s) fault).Ends Q :=
  ⟨⟨s, rfl, hs⟩, hf⟩

lemma andThen {f : Machine → Walk} (hw : w.Ends P) (hf : ∀ m, P m → (f m).Ends Q) :
    (w.andThen f).Ends Q := by
  obtain ⟨visited, machine, error⟩ := w
  cases error with
  | some e => exact hw
  | none => exact hf machine hw

end Walk.Ends

/-- A sound machine with the given conditions. -/
structure Ready (conditions : Stack Value) (m : Machine) : Prop where
  sound : m.Sound
  conditions : m.conditions = conditions

/-- The same with a target. -/
structure Loaded (conditions : Stack Value) (m : Machine) : Prop
    extends Ready conditions m where
  target : m.targets ≠ []

/-- What a target is worth, a machine with one can read. -/
lemma Loaded.target? {c : Stack Value} {m : Machine} (h : Loaded c m) :
    ∃ l v, m.target? = some (l, v) ∧ v.IsNative := by
  obtain ⟨l, rest, htargets⟩ := List.exists_cons_of_ne_nil h.target
  obtain ⟨v, hv⟩ := (h.sound.targets l (by simp [htargets])).read?
  refine ⟨l, v, ?_, h.sound.store.read? hv⟩
  simp [Machine.target?, htargets, Stack.top?, hv]

/-! ## The statements, each where the compiler emits it -/

section Statements

variable {c : Stack Value} {m : Machine} {index : Nat}

/-- A statement that goes on leaves a sound machine. -/
lemma Sound.of_next (h : m.Sound) {s : Statement} {after : Machine}
    (hs : m.execute s = .next after) : after.Sound := by
  have := h.execute s
  rwa [hs] at this

lemma Ready.scope (h : Ready c m) (name : Text) :
    (m.perform index (.scope name)).Ends (Ready c) :=
  ⟨h.sound.execute (.scope name), h.conditions⟩

lemma Ready.type (h : Ready c m) {name : Text} {type : ValueType}
    (htype : ValueType.ofName? name = some type) :
    (m.perform index (.type name)).Ends (Ready c) := by
  have hs : m.execute (.type name) = .next { m with type := name } := by
    simp [execute, Value.zeroOf, htype]
  rw [perform, hs]
  exact ⟨h.sound.of_next hs, h.conditions⟩

lemma Ready.operator (h : Ready c m) (op : Text) :
    (m.perform index (.operator op)).Ends (Ready c) :=
  ⟨h.sound.execute (.operator op), h.conditions⟩

lemma locate?_declare (m : Machine) (name : Text) (v : Value) :
    (m.declare name v).locate? name = some m.store.next := by
  simp [Machine.declare, Machine.locate?, Scope.declare]

lemma Ready.declare (h : Ready c m) (name : Text) :
    (m.perform index (.declare name)).Ends fun m =>
      Ready c m ∧ ∃ l, m.locate? name = some l := by
  obtain ⟨t, -, hs⟩ := h.sound.execute_declare name
  rw [perform, hs]
  exact .step ⟨⟨h.sound.of_next hs, h.conditions⟩, m.store.next, locate?_declare m name _⟩

/-- A load finds the variable that was declared right before it. -/
lemma Ready.load (h : Ready c m) {name : Text} {l : Location} (hl : m.locate? name = some l) :
    (m.perform index (.load name)).Ends (Loaded c) := by
  have hs : m.execute (.load name) = .next { m with targets := m.targets.push l } := by
    simp [execute, hl]
  rw [perform, hs]
  exact .step ⟨⟨h.sound.of_next hs, h.conditions⟩, by simp [Stack.push]⟩

/-- What sets the target keeps it, or fails for an ordinary reason. -/
lemma Loaded.update (h : Loaded c m) {s : Statement} {f : Value → Except Fault Value}
    (hs : m.updater? s = some f) : (m.perform index s).Ends (Loaded c) := by
  obtain ⟨l, v, htarget, hv⟩ := h.target?
  cases hf : f v with
  | ok w =>
      have hnext := execute_set hs htarget hf
      rw [perform, hnext]
      exact ⟨⟨h.sound.of_next hnext, h.conditions⟩, h.target⟩
  | error fault =>
      obtain ⟨hcan, hordinary⟩ := updater_fault hs hv hf
      rw [perform, execute_set_fault hs htarget hf]
      exact .stop hcan hordinary

lemma Loaded.operator (h : Loaded c m) (op : Text) :
    (m.perform index (.operator op)).Ends (Loaded c) :=
  ⟨⟨h.sound.execute (.operator op), h.conditions⟩, h.target⟩

lemma Ready.test (h : Ready c m) (operand : Text) :
    (m.perform index (.test operand)).Ends fun m => ∃ v, Ready (v :: c) m := by
  cases hv : m.operand? operand with
  | some v =>
      have hs : m.execute (.test operand)
          = .next { m with conditions := m.conditions.push v } := by simp [execute, hv]
      rw [perform, hs]
      exact .step ⟨v, h.sound.of_next hs, by simp [Stack.push, h.conditions]⟩
  | none =>
      have hs : m.execute (.test operand) = .stop m (.undefinedVariable operand) := by
        simp [execute, hv]
      rw [perform, hs]
      exact .stop rfl rfl

lemma Ready.compare {left right : Value} (h : Ready (right :: left :: c) m) (op : Text) :
    (m.perform index (.compare op)).Ends fun m => ∃ v, Ready (v :: c) m := by
  cases hresult : Value.compare op left right with
  | ok b =>
      have hs : m.execute (.compare op) = .next { m with conditions := .bool b :: c } := by
        simp [execute, compareTop, h.conditions, hresult]
      rw [perform, hs]
      exact ⟨.bool b, h.sound.of_next hs, rfl⟩
  | error fault =>
      have hs : m.execute (.compare op) = .stop { m with conditions := c } fault := by
        simp [execute, compareTop, h.conditions, hresult]
      rw [perform, hs]
      exact .stop rfl (Value.compare_fault hresult)

end Statements

/-- What each of some statements keeps, all of them keep in a row. -/
lemma performAll_ends {P : Machine → Prop} {l : List Statement}
    (hl : ∀ s ∈ l, ∀ m index, P m → (m.perform index s).Ends P) {m : Machine} (hm : P m)
    (index : Nat) : (m.performAll index l).Ends P := by
  induction l generalizing m index with
  | nil => exact hm
  | cons s l ih =>
      exact (hl s (by simp) m index hm).andThen fun m hm =>
        ih (fun u hu => hl u (by simp [hu])) hm (index + 1)

/-- The tests of a head leave one condition more. -/
lemma Ready.tests {c : Stack Value} {m : Machine} (hm : Ready c m) {head : List Token}
    {front : List Statement} (h : Condition.head head = .ok front) (index : Nat) :
    (m.performAll index (Condition.tests head)).Ends fun m => ∃ v, Ready (v :: c) m := by
  rcases Condition.head_cases h with ⟨a, rfl, -⟩ | ⟨a, comparison, b, rfl, -⟩
  · exact (hm.test a.literal).andThen fun m hm => hm
  · refine (hm.test a.literal).andThen fun m ⟨left, hm⟩ => ?_
    refine (hm.test b.literal).andThen fun m ⟨right, hm⟩ => ?_
    exact (hm.compare comparison.literal).andThen fun m hm => hm

/-- The statements of an expression need a target and keep it. -/
lemma Loaded.expression {c : Stack Value} (modes : Modes) (value : List Token) :
    ∀ s ∈ expressionCode modes value, ∀ m index, Loaded c m →
      (m.perform index s).Ends (Loaded c) := by
  intro s hs m index hm
  obtain ⟨t, -, rfl | rfl | rfl⟩ := mem_expressionCode hs
  · exact hm.update rfl
  · exact hm.update rfl
  · exact hm.operator _

end Machine

/-! ## Programs -/

namespace Tree

lemma walk_sequence (l : List Statement) (rest : Tree) (m : Machine) (index : Nat) :
    (sequence l rest).walk m index
      = (m.performAll index l).andThen (rest.walk · (index + l.length)) := by
  induction l generalizing m index with
  | nil => rfl
  | cons s l ih =>
      rw [performAll, Walk.andThen_assoc, List.length_cons, Nat.add_comm l.length 1,
        ← Nat.add_assoc]
      exact congrArg _ (funext fun m => ih m (index + 1))

lemma sequence_ends {P Q : Machine → Prop} {l : List Statement} {rest : Tree} {m : Machine}
    (hl : ∀ s ∈ l, ∀ m index, P m → (m.perform index s).Ends P) (hm : P m)
    (hrest : ∀ m index, P m → (rest.walk m index).Ends Q) (index : Nat) :
    ((sequence l rest).walk m index).Ends Q := by
  rw [walk_sequence]
  exact (performAll_ends hl hm index).andThen fun m hm => hrest m _ hm

/-- A choice keeps what its body and what stands behind it keep. -/
lemma choice_ends {c : Stack Value} {condition : List Statement} {body rest : Tree} {m : Machine}
    {index : Nat}
    (hcondition : (m.performAll index condition).Ends fun m => ∃ v, Ready (v :: c) m)
    (hbody : ∀ m index, Ready c m → (body.walk m index).Ends (Ready c))
    (hrest : ∀ m index, Ready c m → (rest.walk m index).Ends (Ready c)) :
    ((choice condition body rest).walk m index).Ends (Ready c) := by
  refine hcondition.andThen fun m ⟨v, hm⟩ => ?_
  rw [hm.conditions]
  have hbelow : Ready c { m with conditions := c } :=
    ⟨hm.sound.setConditions fun w hw =>
      hm.sound.conditions w (by rw [hm.conditions]; exact List.mem_cons_of_mem v hw), rfl⟩
  refine Walk.Ends.andThen (P := Ready c) (.step hbelow) fun m hm => ?_
  split
  · refine (hbody m _ hm).andThen fun m hm => ?_
    exact Walk.Ends.andThen (P := Ready c) (.step hm) fun m hm => hrest m _ hm
  · exact hrest m _ hm

end Tree

/-- **A program leads from one balanced situation to another.**  The conditions are those it found,
and what it stops for is ordinary. -/
theorem Derives.walk_ends {strict : Bool} {ts : List Token} {p : Program}
    (h : Derives ⟨.standard, strict⟩ ts p)
    (htypes : ∀ t ∈ ts, t.kind = .type → ∃ type, ValueType.ofName? t.literal = some type)
    {c : Stack Value} (modes : Modes) (m : Machine) (index : Nat) (hm : Ready c m) :
    ((p.tree modes).walk m index).Ends (Ready c) := by
  induction h generalizing modes m index with
  | done => exact hm
  | @type word ts rest hkind _ ih =>
      obtain ⟨type, htype⟩ := htypes word (by simp) hkind
      refine Tree.sequence_ends (fun s hs m index hm => ?_) hm
        (ih (fun t ht => htypes t (by simp [ht])) _) index
      obtain rfl := Modes.mem_typeMarker hs
      exact hm.type htype
  | declare _ _ ih =>
      exact (hm.declare _).andThen fun m hm =>
        ih (fun t ht => htypes t (by simp [ht])) modes m _ hm.1
  | assign _ _ _ _ _ ih =>
      -- the variable is declared, so it can be loaded, so there is a target
      refine (hm.declare _).andThen fun m ⟨hm, l, hl⟩ => ?_
      refine (hm.load hl).andThen fun m hm => ?_
      refine (hm.update rfl).andThen fun m hm => ?_
      refine Tree.sequence_ends (P := Loaded c) (fun s hs m index hm => ?_) hm
        (fun m index hm => ?_) _
      · obtain rfl := Modes.mem_restartMarker hs
        exact hm.operator _
      · exact Tree.sequence_ends (Loaded.expression _ _) hm
          (fun m index hm => ih (fun t ht => htypes t (by simp [ht])) _ m index hm.toReady) index
  | ignored _ _ _ _ ih => exact ih (fun t ht => htypes t (by simp [ht])) modes m index hm
  | block _ hsome _ hfront _ _ _ _ ihbody ihrest =>
      rw [Keywords.standard_handler hsome] at hfront
      exact Tree.choice_ends (hm.tests hfront _)
        (ihbody (fun t ht => htypes t (by simp [ht])) modes)
        (ihrest (fun t ht => htypes t (by simp [ht])) _)

/-- The tokens of a source with a listing. -/
lemma Dialect.listing_eq_ok {d : Dialect} {source : Text} {listing : List Statement}
    (h : d.listing source = .ok listing) :
    ∃ ts, scan source = .ok ts ∧ (d.compile ts).listing = .ok listing := by
  unfold Dialect.listing compileSource at h
  cases hscan : scan source with
  | error e => simp [hscan] at h
  | ok ts =>
      refine ⟨ts, rfl, ?_⟩
      simp only [hscan] at h
      cases hlisting : (d.compile ts).listing with
      | error e => simp [hlisting, Except.mapError] at h
      | ok l => simpa [hlisting, Except.mapError] using h

/-- **Compiled programs do not go wrong structurally.**  On every machine that runs of listings of
any kind lead to, the listing of a source can only fail at a `push`, `get`, `test` or `cmp`, and
only for what these do with names, literals and operators.  If it succeeds, the stack of conditions
is as before. -/
theorem run_fails_ordinarily (strict : Bool) (source : Text) (listing : List Statement)
    (h : Dialect.listing ⟨.standard, strict⟩ source = .ok listing) (m : Machine)
    (hm : m.Reachable) :
    (∀ e, (m.run listing).error = some e → listing[e.index]? = e.statement ∧ e.Ordinary) ∧
      ((m.run listing).error = none → (m.run listing).machine.conditions = m.conditions) := by
  obtain ⟨ts, hscan, hcompile⟩ := Dialect.listing_eq_ok h
  obtain ⟨p, hp, rfl⟩ := listing_eq_ok_iff.mp hcompile
  have htypes := fun t ht => scan_type_literal hscan (t := t) ht
  have hint : ValueType.ofName? "int" = some .int := rfl
  have hends : (p.wholeTree.walk m 0).Ends (Ready m.conditions) := by
    refine Walk.Ends.andThen (Ready.scope ⟨hm.sound, rfl⟩ _) fun m hm => ?_
    refine Walk.Ends.andThen (hm.type hint) fun m hm => ?_
    exact (hm.operator _).andThen fun m hm => hp.walk_ends htypes _ m _ hm
  rw [← hp.walk_eq m, Walk.Ends, walk_run] at hends
  refine ⟨fun e he => ⟨run_error he, ?_⟩, fun hnone => ?_⟩
  · rwa [he] at hends
  · rw [hnone] at hends
    exact hends.conditions

/-- A division by zero in a block, on a machine that a failed run has left with a condition. -/
theorem run_fails_ordinarily_division :
    let m := (Machine.new.run [.test "7", .get "x"]).machine
    let listing : List Statement :=
      [.scope "global", .type "int", .operator "+", .declare "x", .load "x", .clear "0", .push "1",
        .test "x", .branch, .declare "y", .load "y", .clear "0", .get "x", .operator "/",
        .push "0", .endBlock]
    Dialect.listing ⟨.standard, true⟩ "x = 1; if x \x7b y = x / 0; \x7d" = .ok listing ∧
      m.Reachable ∧ m.conditions = [.int 7] ∧
      (m.run listing).error = some ⟨14, some (.push "0"), .divisionByZero⟩ ∧
      ((∀ e, (m.run listing).error = some e → listing[e.index]? = e.statement ∧ e.Ordinary) ∧
        ((m.run listing).error = none → (m.run listing).machine.conditions = m.conditions)) :=
  ⟨by decide +kernel, .run _ .new, by decide +kernel, by decide +kernel,
    run_fails_ordinarily true "x = 1; if x \x7b y = x / 0; \x7d" _ (by decide +kernel) _
      (.run _ .new)⟩

end Scriptlet
