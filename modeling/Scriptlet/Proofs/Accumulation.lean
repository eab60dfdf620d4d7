import Mathlib
import Scriptlet.Proofs.Variables

/-!
# Whole numbers are accumulated exactly, up to multiples of `2 ^ 64`

An expression is evaluated into its target from left to right, and a whole number that outgrows 64
bits wraps around at every step.  Sums, differences and products do not mind: `Int64.ofInt` takes
the ring of all integers to the one of 64 bits, so wrapping at every step is wrapping once at the
end.

`Accumulation.unbounded?` is the same evaluation in the integers, where nothing wraps.  An operand
that is the target itself is the exact number accumulated so far, however large.

* `RingOperator.combine_ofInt` — the operators of the machine are those of the integers, wrapped.
* `Machine.Holds` — the invariant: the target holds the exact number, wrapped, and no other
  variable has changed.
* `Holds.set` — what one operand does to it; **`Holds.run`** — what any number of them do.
* **`accumulation_exact_modulo`** — the final value is the one number of 64 bits that is congruent to
  the exact result, and is the exact result if that fits.
-/

namespace Scriptlet

/-! ## The operators -/

/-- The operators that whole numbers are a ring with. -/
inductive RingOperator where
  | add
  | sub
  | mul
deriving DecidableEq, Repr

namespace RingOperator

def symbol : RingOperator → Text
  | add => "+"
  | sub => "-"
  | mul => "*"

/-- The operator on integers of any size. -/
def exact : RingOperator → Int → Int → Int
  | add, a, b => a + b
  | sub, a, b => a - b
  | mul, a, b => a * b

/-- **Wrapping commutes with the operators.**  Of the operand only its whole number counts. -/
lemma combine_ofInt (op : RingOperator) (a : Int) {v : Value} {b : Int} (hv : v.whole = .ofInt b) :
    Value.combine op.symbol (.int (.ofInt a)) v = .ok (.int (.ofInt (op.exact a b))) := by
  cases op with
  | add =>
      rw [exact, Int64.ofInt_add, ← hv]
      rfl
  | sub =>
      rw [exact, Int64.ofInt_sub, ← hv]
      rfl
  | mul =>
      rw [exact, Int64.ofInt_mul, ← hv]
      rfl

end RingOperator

/-! ## Accumulation in the integers -/

/-- A statement of an expression over whole numbers. -/
inductive Accumulation where
  | operator (op : RingOperator)
  | push (literal : Text)
  | get (name : Text)
deriving DecidableEq, Repr

namespace Accumulation

def statement : Accumulation → Statement
  | operator op => .operator op.symbol
  | push literal => .push literal
  | get name => .get name

/-- The integer that a name stands for while `z` is accumulated at the place `l`: what is accumulated,
if it is the name of that place, and else the value of a whole number that the name stands for. -/
def named? (m : Machine) (l : Location) (z : Int) (name : Text) : Option Int :=
  if m.locate? name = some l then some z
  else (m.value? name).bind fun v =>
    if v.type = ValueType.int.name then some v.whole.toInt else none

/-- **The exact result**: what the statements make of `z` in the integers, if all their operands are
whole numbers of 64 bits or the target. -/
def unbounded? (m : Machine) (l : Location) (op : RingOperator) (z : Int) :
    List Accumulation → Option Int
  | [] => some z
  | operator op :: rest => unbounded? m l op z rest
  | push literal :: rest =>
    (Numeral.readInt64? literal).bind fun n => unbounded? m l op (op.exact z n.toInt) rest
  | get name :: rest =>
    (named? m l z name).bind fun n => unbounded? m l op (op.exact z n) rest

end Accumulation

namespace Machine

/-! ## The target holds the exact number, wrapped -/

/-- The machine `k` has come from `m` by accumulating `z` at the place `l`, with `op` in force. -/
structure Holds (m : Machine) (l : Location) (op : RingOperator) (z : Int) (k : Machine) : Prop where
  scopes : k.scopes = m.scopes
  scope : k.scope = m.scope
  top : k.targets.top? = some l
  operator : k.operator = op.symbol
  value : k.store.read? l = some (.int (.ofInt z))
  others : ∀ j, j ≠ l → k.store.read? j = m.store.read? j

namespace Holds

variable {m k : Machine} {l : Location} {op : RingOperator} {z : Int}

lemma target? (h : Holds m l op z k) : k.target? = some (l, .int (.ofInt z)) :=
  target?_eq_some.mpr ⟨h.top, h.value⟩

lemma setOperator (h : Holds m l op z k) (op' : RingOperator) :
    Holds m l op' z { k with operator := op'.symbol } :=
  { h with operator := rfl }

/-- Setting the target to another number, wrapped. -/
lemma write (h : Holds m l op z k) (z' : Int) :
    Holds m l op z' (k.write l (.int (.ofInt z'))) := by
  have hlive := Store.live_of_read? h.value
  refine { h with value := ?_, others := fun j hj => ?_ }
  · show (k.store.write l _).read? l = _
    rw [Store.read?_write hlive, if_pos rfl]
  · show (k.store.write l _).read? j = _
    rw [Store.read?_write hlive, if_neg hj, h.others j hj]

/-- **One operand**: if the statement combines the target with the integer `n`, wrapped, then the
target holds the result in the integers, wrapped. -/
theorem set (h : Holds m l op z k) {s : Statement} {f : Value → Except Fault Value} {v : Value}
    {n : Int} (hs : k.updater? s = some f) (hv : v.whole = .ofInt n)
    (hf : f (.int (.ofInt z)) = Value.combine k.operator (.int (.ofInt z)) v) :
    ∃ k', k.execute s = .next k' ∧ Holds m l op (op.exact z n) k' := by
  rw [h.operator, op.combine_ofInt z hv] at hf
  exact ⟨_, execute_set hs h.target? hf, h.write _⟩

/-! ## Operands -/

lemma push (h : Holds m l op z k) {literal : Text} {n : Int64}
    (hn : Numeral.readInt64? literal = some n) :
    ∃ k', k.execute (.push literal) = .next k' ∧ Holds m l op (op.exact z n.toInt) k' := by
  have hread : Value.read ValueType.int.name literal = .ok (.int n) := by
    simp [Value.read, Value.readAs?, hn]
  refine h.set (v := .int n) rfl (Int64.ofInt_toInt n).symm ?_
  show k.combineLiteral literal _ = _
  rw [combineLiteral, Value.type_int, hread]
  rfl

lemma push_fault (h : Holds m l op z k) {literal : Text}
    (hn : Numeral.readInt64? literal = none) :
    ∃ fault, k.execute (.push literal) = .stop k fault := by
  have hread : Value.read ValueType.int.name literal
      = .error (.badLiteral literal ValueType.int.name) := by
    simp [Value.read, Value.readAs?, hn]
  have hfault : k.combineLiteral literal (.int (.ofInt z))
      = .error (.badLiteral literal ValueType.int.name) := by
    rw [combineLiteral, Value.type_int, hread]
    rfl
  exact ⟨_, execute_set_fault rfl h.target? hfault⟩

lemma locate? (h : Holds m l op z k) (name : Text) : k.locate? name = m.locate? name := by
  rw [locate?_eq, locate?_eq, place?, place?, h.scopes, h.scope]

/-- A name that does not stand for the target has the value that it had. -/
lemma value? (h : Holds m l op z k) {name : Text} (hname : m.locate? name ≠ some l) :
    k.value? name = m.value? name := by
  rw [Machine.value?, Machine.value?, h.locate?]
  cases hl : m.locate? name with
  | none => rfl
  | some j =>
      refine h.others j fun hj => hname ?_
      rw [hl, hj]

lemma get (h : Holds m l op z k) {name : Text} {n : Int}
    (hn : Accumulation.named? m l z name = some n) :
    ∃ k', k.execute (.get name) = .next k' ∧ Holds m l op (op.exact z n) k' := by
  obtain ⟨v, hvalue, htype, hwhole⟩ : ∃ v, k.value? name = some v ∧
      v.type = ValueType.int.name ∧ v.whole = .ofInt n := by
    unfold Accumulation.named? at hn
    split_ifs at hn with hown
    · obtain rfl := Option.some.inj hn
      refine ⟨.int (.ofInt z), ?_, rfl, rfl⟩
      rw [Machine.value?, h.locate?, hown]
      exact h.value
    · obtain ⟨v, hv, hint⟩ := Option.bind_eq_some_iff.mp hn
      split_ifs at hint with htype
      refine ⟨v, (h.value? hown).trans hv, htype, ?_⟩
      rw [← Option.some.inj hint, Int64.ofInt_toInt]
  have hconvert : v.convert ValueType.int.name = .ok v := if_pos htype
  refine h.set rfl hwhole ?_
  show k.combineVariable name _ = _
  simp only [combineVariable, hvalue, Value.type_int, hconvert]
  rfl

lemma get_fault (h : Holds m l op z k) {name : Text}
    (hn : Accumulation.named? m l z name = none) :
    ∃ fault, k.execute (.get name) = .stop k fault := by
  unfold Accumulation.named? at hn
  split_ifs at hn with hown
  suffices hfault : ∃ fault, k.combineVariable name (.int (.ofInt z)) = .error fault by
    obtain ⟨fault, hfault⟩ := hfault
    exact ⟨fault, execute_set_fault rfl h.target? hfault⟩
  rw [combineVariable, h.value? hown]
  cases hm : m.value? name with
  | none => exact ⟨_, rfl⟩
  | some v =>
      have htype : v.type ≠ ValueType.int.name := by
        intro htype
        simp [hm, htype] at hn
      have hconvert : v.convert ValueType.int.name
          = .error (.cannotUse v.type ValueType.int.name) := by
        rw [Value.convert, if_neg htype, if_neg fun hwidens => htype hwidens.1]
      refine ⟨.cannotUse v.type ValueType.int.name, ?_⟩
      simp only [Value.type_int, hconvert]
      rfl

/-! ## Any number of operands -/

/-- **A run of accumulating statements** succeeds exactly if there is an exact result, and then the
target holds that result, wrapped. -/
theorem run (h : Holds m l op z k) (steps : List Accumulation) (index : Nat) :
    match Accumulation.unbounded? m l op z steps with
    | some r =>
      (k.runFrom index 0 ((steps.map Accumulation.statement).map some)).error = none ∧
        ∃ op', Holds m l op' r
          (k.runFrom index 0 ((steps.map Accumulation.statement).map some)).machine
    | none => (k.runFrom index 0 ((steps.map Accumulation.statement).map some)).error ≠ none := by
  induction steps generalizing k op z index with
  | nil => exact ⟨rfl, op, h⟩
  | cons step steps ih =>
      cases step with
      | operator op' => exact ih (h.setOperator op') (index + 1)
      | push literal =>
          cases hn : Numeral.readInt64? literal with
          | none =>
              obtain ⟨fault, hstop⟩ := h.push_fault hn
              simp [Accumulation.unbounded?, hn, runFrom, executeSlot, Accumulation.statement,
                hstop]
          | some n =>
              obtain ⟨k', hnext, hk'⟩ := h.push hn
              simpa only [Accumulation.unbounded?, hn, Option.bind_some, List.map_cons, runFrom,
                executeSlot, Accumulation.statement, hnext] using ih hk' (index + 1)
      | get name =>
          cases hn : Accumulation.named? m l z name with
          | none =>
              obtain ⟨fault, hstop⟩ := h.get_fault hn
              simp [Accumulation.unbounded?, hn, runFrom, executeSlot, Accumulation.statement,
                hstop]
          | some n =>
              obtain ⟨k', hnext, hk'⟩ := h.get hn
              simpa only [Accumulation.unbounded?, hn, Option.bind_some, List.map_cons, runFrom,
                executeSlot, Accumulation.statement, hnext] using ih hk' (index + 1)

end Holds

end Machine

/-! ## Numbers of 64 bits -/

lemma toInt_ofInt_modEq (z : Int) : (Int64.ofInt z).toInt ≡ z [ZMOD 2 ^ 64] := by
  rw [Int64.toInt_ofInt]
  exact Int.bmod_emod

lemma eq_toInt_ofInt {y z : Int} (hmin : -2 ^ 63 ≤ y) (hmax : y ≤ 2 ^ 63 - 1)
    (h : y ≡ z [ZMOD 2 ^ 64]) : y = (Int64.ofInt z).toInt := by
  have hmod := h.trans (toInt_ofInt_modEq z).symm
  have hlow := Int64.le_toInt (Int64.ofInt z)
  have hhigh := Int64.toInt_lt (Int64.ofInt z)
  unfold Int.ModEq at hmod
  omega

/-- **Accumulation is exact modulo `2 ^ 64`.**  A machine has a whole number `c` for its target, at
the place `l`, and one of the operators `+`, `-` and `*` in force.  Statements that combine literals
and variables with the target and change between these operators run without an error exactly if
they have an exact result `z` in the integers.  Then the target is still at `l`, and its value is the
one number from `-2 ^ 63` to `2 ^ 63 - 1` that is congruent to `z` modulo `2 ^ 64`; so it is `z`
itself if that is among these numbers, no matter what was exceeded on the way. -/
theorem accumulation_exact_modulo (m : Machine) (l : Location) (c : Int64) (op : RingOperator)
    (steps : List Accumulation) (htarget : m.target? = some (l, .int c))
    (hoperator : m.operator = op.symbol) :
    ((m.run (steps.map Accumulation.statement)).error = none ↔
      ∃ z, Accumulation.unbounded? m l op c.toInt steps = some z) ∧
    ∀ z, Accumulation.unbounded? m l op c.toInt steps = some z →
      ∃ r : Int64,
        (m.run (steps.map Accumulation.statement)).machine.target? = some (l, .int r) ∧
        r.toInt ≡ z [ZMOD 2 ^ 64] ∧ -2 ^ 63 ≤ r.toInt ∧ r.toInt ≤ 2 ^ 63 - 1 ∧
        (∀ y : Int, -2 ^ 63 ≤ y → y ≤ 2 ^ 63 - 1 → y ≡ z [ZMOD 2 ^ 64] → y = r.toInt) ∧
        (-2 ^ 63 ≤ z → z ≤ 2 ^ 63 - 1 → r.toInt = z) := by
  obtain ⟨htop, hvalue⟩ := Machine.target?_eq_some.mp htarget
  have hholds : m.Holds l op c.toInt m :=
    ⟨rfl, rfl, htop, hoperator, by rw [hvalue, Int64.ofInt_toInt], fun _ _ => rfl⟩
  have hrun := hholds.run steps 0
  cases hexact : Accumulation.unbounded? m l op c.toInt steps with
  | none =>
      rw [hexact] at hrun
      refine ⟨⟨fun herror => absurd herror hrun, ?_⟩, ?_⟩
      · rintro ⟨z, hz⟩
        cases hz
      · intro z hz
        cases hz
  | some z =>
      rw [hexact] at hrun
      obtain ⟨herror, op', hfinal⟩ := hrun
      refine ⟨⟨fun _ => ⟨z, rfl⟩, fun _ => herror⟩, ?_⟩
      rintro _ ⟨rfl⟩
      refine ⟨.ofInt z, hfinal.target?, toInt_ofInt_modEq z, Int64.le_toInt _, ?_, ?_, ?_⟩
      · have hhigh := Int64.toInt_lt (Int64.ofInt z)
        omega
      · intro y hmin hmax hmod
        exact eq_toInt_ofInt hmin hmax hmod
      · intro hmin hmax
        exact (eq_toInt_ofInt hmin hmax rfl).symm

/-- The target doubles to `2 ^ 63`, which does not fit, comes back to `1`, is multiplied with another
variable and then with itself. -/
theorem accumulation_exact_modulo_beyond :
    let m := (Machine.new.run [.declare "y", .load "y", .push "-5", .declare "x", .load "x",
      .push "4611686018427387904"]).machine
    let steps : List Accumulation := [.get "x", .operator .sub, .push "9223372036854775807",
      .operator .mul, .get "y", .get "x"]
    m.target? = some (⟨1⟩, .int 4611686018427387904) ∧ m.operator = RingOperator.add.symbol ∧
    Accumulation.unbounded? m ⟨1⟩ .add 4611686018427387904 [.get "x"] = some (2 ^ 63) ∧
    (m.run [.get "x"]).machine.target? = some (⟨1⟩, .int (-9223372036854775808)) ∧
    Accumulation.unbounded? m ⟨1⟩ .add 4611686018427387904 steps = some 25 ∧
    (m.run (steps.map Accumulation.statement)).error = none ∧
    ∃ r : Int64, (m.run (steps.map Accumulation.statement)).machine.target? = some (⟨1⟩, .int r) ∧
      r.toInt = 25 := by
  intro m steps
  have htarget : m.target? = some (⟨1⟩, .int 4611686018427387904) := by decide +kernel
  have hoperator : m.operator = RingOperator.add.symbol := by decide +kernel
  have hexact : Accumulation.unbounded? m ⟨1⟩ .add 4611686018427387904 steps = some 25 := by
    decide +kernel
  obtain ⟨hruns, hresult⟩ := accumulation_exact_modulo m ⟨1⟩ _ .add steps htarget hoperator
  obtain ⟨r, hr, -, -, -, -, hfits⟩ := hresult 25 hexact
  exact ⟨htarget, hoperator, by decide +kernel, by decide +kernel, hexact,
    hruns.mpr ⟨25, hexact⟩, r, hr, hfits (by decide) (by decide)⟩

end Scriptlet
