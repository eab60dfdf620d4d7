import Mathlib
import Scriptlet.Proofs.ModeMarkers

/-!
# Listings with every mode restated

`restate` marks the modes of the compiler again in front of every statement that reads one: the
type in front of a declaration, the operator in front of what combines a value with the target.
Such a listing does not depend on what was executed before.  A listing as the compiler makes it
does, and here the two are compared.

* `restate_simulates` — where the modes that are read are those of the compiler, the listing and
  its restatement run alike: the machines differ in their modes at most.  The induction is over the
  statements with a count of those to pass over, and `blockLength?_restate` says how the count of
  one listing becomes the count of the other.
* **`transparent_iff_keepsModes`** — leaving out the markers of modes in force is transparent, at
  every statement and in the outcome, exactly if the blocks that are passed over keep the modes.
* `not_transparent_behind_block` — a program where they do not.
-/

namespace Scriptlet

open Machine

/-! ## The restatement -/

namespace Emission

/-- The marker of the mode that the statement reads. -/
def reminder (e : Emission) : List Statement :=
  match e.statement with
  | .declare _ => [.type e.modes.type]
  | .push _ | .get _ => [.operator e.modes.operator]
  | _ => []

/-- On this machine, the mode that the statement reads is that of the compiler. -/
def Suits (e : Emission) (m : Machine) : Prop :=
  match e.statement with
  | .declare _ => m.type = e.modes.type
  | .push _ | .get _ => m.operator = e.modes.operator
  | _ => True

lemma suits_of_modes {e : Emission} {m : Machine} (h : m.modes = e.modes) : e.Suits m := by
  unfold Suits
  split
  · rw [← h]; rfl
  · rw [← h]; rfl
  · rw [← h]; rfl
  · trivial

lemma reminder_straight (e : Emission) : ∀ s ∈ e.reminder, s.isStraight := by
  unfold reminder
  split <;> simp [Statement.isStraight]

end Emission

/-- The listing in which every mode that is read is marked. -/
def restate (es : List Emission) : List Statement :=
  es.flatMap fun e => e.reminder ++ [e.statement]

@[simp] lemma restate_nil : restate [] = [] := rfl

@[simp] lemma restate_cons (e : Emission) (es : List Emission) :
    restate (e :: es) = e.reminder ++ e.statement :: restate es := by
  simp [restate]

/-- A block of the restatement is a block restated. -/
lemma blockLength?_restate (depth : Nat) (es : List Emission) :
    blockLength? depth ((restate es).map some)
      = (blockLength? depth ((es.map Emission.statement).map some)).map
          fun n => (restate (es.take n)).length := by
  induction es generalizing depth with
  | nil => rfl
  | cons e es ih =>
      rw [restate_cons, List.map_append, blockLength?_straights e.reminder_straight, List.map_cons,
        List.map_cons, List.map_cons]
      -- the statement counts for both, and behind it the hypothesis applies
      have hbehind (depth : Nat) :
          ((blockLength? depth ((restate es).map some)).map (· + 1)).map (· + e.reminder.length)
            = ((blockLength? depth ((es.map Emission.statement).map some)).map (· + 1)).map
                fun n => (restate ((e :: es).take n)).length := by
        rw [ih depth]
        cases blockLength? depth ((es.map Emission.statement).map some) with
        | none => rfl
        | some n => simp [Nat.add_comm]
      by_cases hs : e.statement.isStraight
      · rw [blockLength?_straight hs, blockLength?_straight hs, hbehind]
      · by_cases hopens : e.statement.opensBlock
        · rw [blockLength?_opens hopens, blockLength?_opens hopens, hbehind]
        · have hend : e.statement = .endBlock := by
            cases h : e.statement <;> simp_all [Statement.isStraight, Statement.opensBlock]
          cases depth with
          | zero => simp [hend, blockLength?, Emission.reminder]
          | succ depth => rw [hend, blockLength?_end, blockLength?_end, hbehind]

/-! ## Machines that differ in their modes -/

namespace Machine

/-- The machines are the same but for the type and the operator in force. -/
def Alike (m m' : Machine) : Prop :=
  ∃ type operator, m' = { m with type, operator }

lemma Alike.refl (m : Machine) : m.Alike m :=
  ⟨m.type, m.operator, rfl⟩

/-- The machines have the mode that the statement reads in common. -/
def Agree (m m' : Machine) : Statement → Prop
  | .declare _ => m'.type = m.type
  | .push _ | .get _ => m'.operator = m.operator
  | _ => True

/-- Effects of the same kind on machines that are alike. -/
inductive Effect.Alike : Effect → Effect → Prop where
  | next {m m' : Machine} : m.Alike m' → Effect.Alike (.next m) (.next m')
  | skip {m m' : Machine} : m.Alike m' → Effect.Alike (.skip m) (.skip m')
  | stop {m m' : Machine} (fault : Fault) : m.Alike m' →
      Effect.Alike (.stop m fault) (.stop m' fault)

/-- Runs that end alike, for the same reason if they fail. -/
structure Run.Alike (r r' : Run) : Prop where
  machine : r.machine.Alike r'.machine
  fault : r.error.map RuntimeError.fault = r'.error.map RuntimeError.fault

variable {m m' : Machine}

lemma update_alike (h : m.Alike m') (f : Value → Except Fault Value) :
    (m.update f).Alike (m'.update f) := by
  obtain ⟨type, operator, rfl⟩ := h
  have htarget : ({ m with type, operator } : Machine).target? = m.target? := rfl
  unfold update
  rw [htarget]
  cases m.target? with
  | none => exact .stop _ ⟨type, operator, rfl⟩
  | some target =>
      dsimp only
      cases f target.2 with
      | ok w => exact .next ⟨type, operator, rfl⟩
      | error fault => exact .stop _ ⟨type, operator, rfl⟩

/-- **A statement has the same effect on machines that are alike**, if they have the mode that it
reads in common. -/
lemma execute_alike (h : m.Alike m') {s : Statement} (hs : Agree m m' s) :
    (m.execute s).Alike (m'.execute s) := by
  cases s with
  | declare name =>
      obtain ⟨type, operator, rfl⟩ := h
      obtain rfl : type = m.type := hs
      simp only [execute]
      cases Value.zeroOf m.type with
      | ok v => exact .next ⟨m.type, operator, rfl⟩
      | error fault => exact .stop _ ⟨m.type, operator, rfl⟩
  | push literal =>
      obtain ⟨type, operator, rfl⟩ := h
      obtain rfl : operator = m.operator := hs
      exact update_alike ⟨type, m.operator, rfl⟩ (m.combineLiteral literal)
  | get name =>
      obtain ⟨type, operator, rfl⟩ := h
      obtain rfl : operator = m.operator := hs
      exact update_alike ⟨type, m.operator, rfl⟩ (m.combineVariable name)
  | clear literal => exact update_alike h _
  | type name =>
      obtain ⟨type, operator, rfl⟩ := h
      simp only [execute]
      cases Value.zeroOf name with
      | ok v => exact .next ⟨name, operator, rfl⟩
      | error fault => exact .stop _ ⟨type, operator, rfl⟩
  | operator op =>
      obtain ⟨type, operator, rfl⟩ := h
      exact .next ⟨type, op, rfl⟩
  | load name =>
      obtain ⟨type, operator, rfl⟩ := h
      have hlocate : ({ m with type, operator } : Machine).locate? name = m.locate? name := rfl
      simp only [execute, hlocate]
      cases m.locate? name with
      | some l => exact .next ⟨type, operator, rfl⟩
      | none => exact .stop _ ⟨type, operator, rfl⟩
  | test operand =>
      obtain ⟨type, operator, rfl⟩ := h
      have hoperand : ({ m with type, operator } : Machine).operand? operand
          = m.operand? operand := rfl
      simp only [execute, hoperand]
      cases m.operand? operand with
      | some v => exact .next ⟨type, operator, rfl⟩
      | none => exact .stop _ ⟨type, operator, rfl⟩
  | compare op =>
      obtain ⟨type, operator, rfl⟩ := h
      simp only [execute, compareTop]
      split
      · next right left rest _ =>
          cases Value.compare op left right with
          | ok b => exact .next ⟨type, operator, rfl⟩
          | error fault => exact .stop _ ⟨type, operator, rfl⟩
      · exact .stop _ ⟨type, operator, rfl⟩
  | branch =>
      obtain ⟨type, operator, rfl⟩ := h
      simp only [execute, branchTop]
      split
      · exact .stop _ ⟨type, operator, rfl⟩
      · split
        · exact .next ⟨type, operator, rfl⟩
        · exact .skip ⟨type, operator, rfl⟩
  | scope name =>
      obtain ⟨type, operator, rfl⟩ := h
      exact .next ⟨type, operator, rfl⟩
  | beginBlock => exact .next h
  | endBlock => exact .next h

/-! ## The simulation -/

/-- Statements in front are passed over first. -/
lemma runFrom_pass (m : Machine) (index n : Nat) (front rest : List (Option Statement)) :
    m.runFrom index (front.length + n) (front ++ rest)
      = m.runFrom (index + front.length) n rest := by
  induction front generalizing index with
  | nil => simp
  | cons s front ih =>
      rw [List.length_cons, Nat.add_right_comm, List.cons_append, runFrom, ih]
      congr 1
      omega

/-- The reminder of a statement brings the machine that it runs on to agree.  It does not fail,
since a type in force has a zero. -/
lemma run_reminder {e : Emission} (hm : m.Sound) (h : m.Alike m') (hs : e.Suits m) :
    ∃ m'', m.Alike m'' ∧ Agree m m'' e.statement ∧ ∀ index rest, ∃ index',
      m'.runFrom index 0 (e.reminder.map some ++ rest) = m''.runFrom index' 0 rest := by
  obtain ⟨type, operator, rfl⟩ := h
  unfold Emission.Suits at hs
  unfold Emission.reminder
  split at hs
  · next name hname =>
      obtain ⟨t, ht⟩ := hm.type
      refine ⟨{ m with operator }, ⟨m.type, operator, rfl⟩, by rw [hname]; rfl, ?_⟩
      exact fun index rest => ⟨index + 1, by simp [runFrom, executeSlot, execute, ← hs, ht]⟩
  · next literal hpush =>
      refine ⟨{ m with type }, ⟨type, m.operator, rfl⟩, by rw [hpush]; rfl, ?_⟩
      exact fun index rest => ⟨index + 1, by simp [runFrom, executeSlot, execute, ← hs]⟩
  · next name hget =>
      refine ⟨{ m with type }, ⟨type, m.operator, rfl⟩, by rw [hget]; rfl, ?_⟩
      exact fun index rest => ⟨index + 1, by simp [runFrom, executeSlot, execute, ← hs]⟩
  · next hdeclare hpush hget =>
      refine ⟨_, ⟨type, operator, rfl⟩, ?_, fun index rest => ⟨index, ?_⟩⟩
      · unfold Agree
        split <;> simp_all
      · rfl

end Machine

/-- **The listing and its restatement run alike**, in front of a number of statements to pass over,
if every statement that is executed reads the modes of the compiler. -/
theorem restate_simulates {es : List Emission} {m m' : Machine} (hm : m.Sound) (h : m.Alike m')
    (index skip index' : Nat)
    (hsuits : ∀ v ∈ (m.walkFrom index skip ((es.map Emission.statement).map some)).visited,
      ∀ k e, v.1 = index + k → es[k]? = some e → e.Suits v.2) :
    (m.runFrom index skip ((es.map Emission.statement).map some)).Alike
      (m'.runFrom index' (restate (es.take skip)).length ((restate es).map some)) := by
  induction es generalizing m m' index skip index' with
  | nil => exact ⟨h, rfl⟩
  | cons e es ih =>
      -- a statement that suits behind the first one suits in the whole listing
      have hbehind {k : Machine} {n : Nat}
          (hk : ∀ v ∈ (k.walkFrom (index + 1) n ((es.map Emission.statement).map some)).visited,
            v ∈ (m.walkFrom index skip (((e :: es).map Emission.statement).map some)).visited) :
          ∀ v ∈ (k.walkFrom (index + 1) n ((es.map Emission.statement).map some)).visited,
            ∀ j f, v.1 = index + 1 + j → es[j]? = some f → f.Suits v.2 :=
        fun v hv j f hj hf => hsuits v (hk v hv) (j + 1) f (by omega) hf
      cases skip with
      | succ skip =>
          have hfull := runFrom_pass m' index' (restate (es.take skip)).length
            ((e.reminder ++ [e.statement]).map some) ((restate es).map some)
          have hcount : ((e.reminder ++ [e.statement]).map some).length
              + (restate (es.take skip)).length
              = (restate ((e :: es).take (skip + 1))).length := by
            simp
            omega
          have hlisting : (e.reminder ++ [e.statement]).map some ++ (restate es).map some
              = (restate (e :: es)).map some := by simp
          rw [hcount, hlisting] at hfull
          rw [hfull]
          exact ih hm h (index + 1) skip _ (hbehind fun v hv => hv)
      | zero =>
          obtain ⟨m'', halike, hagree, hrun⟩ :=
            run_reminder hm h (hsuits (index, m) (mem_walkFrom_cons _ _ _ _) 0 e rfl rfl)
          obtain ⟨start, hstart⟩ := hrun index' (some e.statement :: (restate es).map some)
          have hlisting : (restate (e :: es)).map some
              = e.reminder.map some ++ some e.statement :: (restate es).map some := by simp
          rw [List.take_zero, restate_nil, List.length_nil, hlisting, hstart, List.map_cons,
            List.map_cons]
          have heffect := execute_alike halike hagree
          have hsound := hm.execute e.statement
          simp only [runFrom, executeSlot]
          generalize heq : m.execute e.statement = effect at heffect hsound ⊢
          generalize m''.execute e.statement = effect' at heffect ⊢
          cases heffect with
          | next hafter =>
              refine ih hsound hafter (index + 1) 0 (start + 1) (hbehind fun v hv => ?_)
              simp only [List.map_cons, walkFrom, executeSlot, heq]
              exact List.mem_cons_of_mem _ hv
          | skip hafter =>
              dsimp only
              rw [blockLength?_restate]
              cases hn : blockLength? 0 ((es.map Emission.statement).map some) with
              | none => exact ⟨hafter, rfl⟩
              | some n =>
                  refine ih hsound hafter (index + 1) n (start + 1) (hbehind fun v hv => ?_)
                  simp only [List.map_cons, walkFrom, executeSlot, heq, hn]
                  exact List.mem_cons_of_mem _ hv
          | stop fault hafter => exact ⟨hafter, rfl⟩

/-! ## Transparency -/

/-- The runs leave the same variables, of the same types and with the same values, and both succeed
or both fail for the same reason. -/
structure Machine.Run.SameOutcome (r r' : Run) : Prop where
  lookup? : ∀ scope name, r.machine.lookup? scope name = r'.machine.lookup? scope name
  fault : r.error.map RuntimeError.fault = r'.error.map RuntimeError.fault

lemma Machine.Run.Alike.sameOutcome {r r' : Run} (h : r.Alike r') : r.SameOutcome r' := by
  refine ⟨fun scope name => ?_, h.fault⟩
  obtain ⟨type, operator, hmachine⟩ := h.machine
  rw [hmachine]
  rfl

/-- Statements that read the modes of the compiler make the restatement superfluous. -/
lemma sameOutcome_of_suits {es : List Emission}
    (h : ∀ v ∈ executed es, ∀ e ∈ es[v.1]?, e.Suits v.2) :
    (Machine.new.run (es.map Emission.statement)).SameOutcome (Machine.new.run (restate es)) := by
  have halike : (Machine.new.run (es.map Emission.statement)).Alike
      (Machine.new.run (restate es)) :=
    restate_simulates .new (.refl .new) 0 0 0 fun v hv k e hk he =>
      h v hv e (by rwa [hk, Nat.zero_add])
  exact halike.sameOutcome

lemma InStep.sameOutcome {es : List Emission} (h : InStep es) :
    (Machine.new.run (es.map Emission.statement)).SameOutcome (Machine.new.run (restate es)) :=
  sameOutcome_of_suits fun v hv e he => Emission.suits_of_modes (h v hv e he)

/-- **When leaving out the markers of modes in force is transparent.**  For whatever list of tokens
the compiler accepts with the standard keywords, let the emissions be the statements of its listing
with the modes of the compiler.

* The machine has the modes of the compiler at every statement that it executes, and the listing
  with every mode restated has the same outcome, exactly if every block that the run passes over
  leaves the modes as it found them.
* For the outcome it is enough that the statements that read a mode find that of the compiler. -/
theorem transparent_iff_keepsModes (strict : Bool) (ts : List Token) (delta : List Statement)
    (h : (Dialect.compile ⟨.standard, strict⟩ ts).listing = .ok delta) :
    let es := Dialect.emissions ⟨.standard, strict⟩ ts
    let full := restate es
    es.map Emission.statement = delta ∧
    ((InStep es ∧ (Machine.new.run delta).SameOutcome (Machine.new.run full)) ↔ KeepsModes es) ∧
    ((∀ v ∈ executed es, ∀ e ∈ es[v.1]?, e.Suits v.2) →
      (Machine.new.run delta).SameOutcome (Machine.new.run full)) := by
  intro es full
  have hdelta : es.map Emission.statement = delta := Dialect.emissions_statements h
  obtain ⟨last, hchain⟩ := Dialect.emissions_chain h
  have hiff : InStep es ↔ KeepsModes es := inStep_iff_keepsModes hchain
  subst hdelta
  refine ⟨rfl, ⟨fun hboth => hiff.mp hboth.1, fun hkeeps => ?_⟩, sameOutcome_of_suits⟩
  exact ⟨hiff.mpr hkeeps, (hiff.mpr hkeeps).sameOutcome⟩

/-- A block that is passed over changes the operator twice, and back to what it was. -/
theorem transparent_iff_keepsModes_restored :
    let source : Text := "a = 1 * 2; if 0 \x7b b = 3 * 1; \x7d c = 5;"
    let ts := (scan source).toOption.getD []
    let delta := (Dialect.compile ⟨.standard, true⟩ ts).emitted
    let es := Dialect.emissions ⟨.standard, true⟩ ts
    scan source = .ok ts ∧ (Dialect.compile ⟨.standard, true⟩ ts).listing = .ok delta ∧
      KeepsModes es ∧ InStep es ∧
      (Machine.new.run delta).SameOutcome (Machine.new.run (restate es)) :=
  ⟨by decide +kernel, by decide +kernel, by decide +kernel,
    (transparent_iff_keepsModes true _ _ (by decide +kernel)).2.1.mpr (by decide +kernel)⟩

/-- **Transparency fails behind a block that is passed over.**  The operator that `c` starts with is
marked inside the block only, so the machine multiplies where the compiler meant to add. -/
theorem not_transparent_behind_block :
    let source : Text := "a = 1 * 2; if 0 \x7b b = 1; \x7d c = 5;"
    let ts := (scan source).toOption.getD []
    let delta := (Dialect.compile ⟨.standard, false⟩ ts).emitted
    let es := Dialect.emissions ⟨.standard, false⟩ ts
    scan source = .ok ts ∧ (Dialect.compile ⟨.standard, false⟩ ts).listing = .ok delta ∧
      (Machine.new.run delta).machine.lookup? "global" "c" = some (.int 0) ∧
      (Machine.new.run (restate es)).machine.lookup? "global" "c" = some (.int 5) ∧
      ¬ InStep es ∧ ¬ (Machine.new.run delta).SameOutcome (Machine.new.run (restate es)) :=
  ⟨by decide +kernel, by decide +kernel, by decide +kernel, by decide +kernel, by decide +kernel,
    fun h => absurd (h.lookup? "global" "c") (by decide +kernel)⟩

end Scriptlet
