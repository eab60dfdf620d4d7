import Mathlib
import Scriptlet.Proofs.Safety

/-!
# Straight programs compute what their source says

A program without conditions has a meaning that needs no listing and no machine.  `Interpreter`
reads its tokens from left to right and keeps a type, an operator and the values of the variables:

* a type word sets the type,
* a name becomes a variable with the zero of the type, whatever it was before,
* an equals sign sets the operator to `+`, unless the type is `bool`; up to the terminator, every
  number and every name is then folded into the variable in front of the sign, under the operator
  in force, and every operator is put in force.

The way through the compiler has more to it: markers that are left out where they change nothing,
a target that is loaded and cleared, places in a store.  `Agrees` relates the three states between
two tokens, that of the compiler, that of the machine and that of the interpreter.  One token leads
from agreement to agreement, or to the same failure on both sides (`Agrees.move`), and so do all of
them in a row (`Agrees.run`).

* **`run_eq_interpretation`** — the listing of a source without conditions leaves the variables that
  the interpreter leaves, or both fail at one operand, for one reason.
-/

namespace Scriptlet

open Compile Machine

/-! ## The interpreter -/

/-- What the interpreter keeps between two tokens. -/
structure Interpreter where
  type : ValueType := .int
  operator : Text := "+"
  environment : Std.TreeMap Text Value := ∅
  /-- The variable declared last. -/
  name : Text := ""
  /-- Whether the tokens up to the next terminator are the value of that variable. -/
  assigning : Bool := false

namespace Interpreter

def new : Interpreter := {}

/-- A value as an operand for another one: it has the same type, or is a whole number that
widens. -/
def widen (v acc : Value) : Except Fault Value :=
  match ValueType.ofName? v.type, ValueType.ofName? acc.type with
  | some .int, some .int | some .float, some .float | some .bool, some .bool => .ok v
  | some .int, some .float => .ok (.float v.whole.toFloat)
  | _, _ => .error (.cannotUse v.type acc.type)

/-- What a variable is worth as an operand at this moment. -/
def fetch (σ : Interpreter) (name : Text) (acc : Value) : Except Fault Value :=
  match σ.environment[name]? with
  | some v => widen v acc
  | none => .error (.undefinedVariable name)

/-- Folds an operand, which is read for the value accumulated so far, into the variable. -/
def accumulate (σ : Interpreter) (operand : Value → Except Fault Value) :
    Except Fault Interpreter := do
  let acc := σ.environment.getD σ.name (.zero σ.type)
  let w ← Value.combine σ.operator acc (← operand acc)
  return { σ with environment := σ.environment.insert σ.name w }

def step (σ : Interpreter) (t : Token) : Except Fault Interpreter :=
  if σ.assigning then
    match t.kind with
    | .number => σ.accumulate fun acc => Value.read acc.type t.literal
    | .identifier => σ.accumulate (σ.fetch t.literal)
    | .binaryOperator => .ok { σ with operator := t.literal }
    | .terminator => .ok { σ with assigning := false }
    | _ => .ok σ
  else
    match t.kind with
    | .type => .ok { σ with type := (ValueType.ofName? t.literal).getD σ.type }
    | .identifier =>
      .ok { σ with
        environment := σ.environment.insert t.literal (.zero σ.type), name := t.literal }
    | .equals =>
      .ok { σ with operator := if σ.type = .bool then σ.operator else "+", assigning := true }
    | _ => .ok σ

/-- How an interpretation ends; a failure names the token and the reason. -/
structure Outcome where
  state : Interpreter
  failure : Option (Nat × Fault)

/-- Interprets tokens up to the first that fails; the first of them has the given index. -/
def run (σ : Interpreter) (index : Nat) : List Token → Outcome
  | [] => ⟨σ, none⟩
  | t :: rest =>
    match σ.step t with
    | .ok next => next.run (index + 1) rest
    | .error fault => ⟨σ, some (index, fault)⟩

end Interpreter

/-- The tokens in statement position, up to the first `if` among them: those outside of the value of
an assignment. -/
def statementTokens (assigning : Bool) : List Token → List Token
  | [] => []
  | t :: rest =>
    if assigning then statementTokens (t.kind ≠ .terminator) rest
    else t :: statementTokens (t.kind = .equals) rest

/-- The statement that an operand of an expression becomes. -/
def Token.operandStatement (t : Token) : Statement :=
  if t.kind = .number then .push t.literal else .get t.literal

/-- Whether the token is an operand. -/
def Token.isOperand (t : Token) : Prop :=
  t.kind = .number ∨ t.kind = .identifier

namespace Interpreter

lemma accumulate_eq (σ : Interpreter) (operand : Value → Except Fault Value) {acc : Value}
    (hacc : σ.environment.getD σ.name (.zero σ.type) = acc) :
    σ.accumulate operand = ((operand acc).bind (Value.combine σ.operator acc)).map fun w =>
      { σ with environment := σ.environment.insert σ.name w } := by
  unfold accumulate
  simp only [hacc, bind, pure, Except.pure]
  cases operand acc with
  | error e => rfl
  | ok v => cases hcombine : Value.combine σ.operator acc v <;>
      simp [Except.bind, Except.map, hcombine]

/-- Folding an operand changes the variable and nothing else. -/
lemma accumulate_ok {σ next : Interpreter} {operand : Value → Except Fault Value}
    (h : σ.accumulate operand = .ok next) :
    ∃ w, next = { σ with environment := σ.environment.insert σ.name w } := by
  rw [accumulate_eq σ operand rfl] at h
  generalize (operand _).bind _ = result at h
  cases result with
  | error e => simp [Except.map] at h
  | ok w => exact ⟨w, (Except.ok.inj h).symm⟩

/-- Where the next token stands. -/
lemma step_assigning {σ next : Interpreter} {t : Token} (h : σ.step t = .ok next) :
    next.assigning = if σ.assigning then decide (t.kind ≠ .terminator)
      else decide (t.kind = .equals) := by
  cases hassigning : σ.assigning with
  | true =>
      cases hk : t.kind <;> simp only [step, hassigning, hk, if_true] at h
      case number | identifier =>
        obtain ⟨w, rfl⟩ := accumulate_ok h
        simp [hassigning]
      all_goals simp [← Except.ok.inj h, hassigning]
  | false =>
      cases hk : t.kind <;> simp only [step, hassigning, hk, Bool.false_eq_true, if_false] at h <;>
        simp [← Except.ok.inj h, hassigning]

end Interpreter

lemma ValueType.name_inj {t u : ValueType} : t.name = u.name ↔ t = u := by
  constructor
  · intro h
    have hofName := ValueType.ofName?_name t
    rw [h, ValueType.ofName?_name] at hofName
    exact (Option.some.inj hofName).symm
  · exact congrArg _

/-- Between values of the language, conversion is widening. -/
lemma Value.convert_eq_widen {v acc : Value} (hv : v.IsNative) (hacc : acc.IsNative) :
    v.convert acc.type = Interpreter.widen v acc := by
  cases hv <;> cases hacc <;>
    simp [Value.convert, Interpreter.widen, ValueType.name_inj]

/-! ## Statements in a row -/

namespace Machine

/-- The statements, executed in order, all go on, and lead from one machine to another. -/
inductive Performs : Machine → List Statement → Machine → Prop where
  | nil {m : Machine} : Performs m [] m
  | cons {m after last : Machine} {s : Statement} {rest : List Statement} :
      m.execute s = .next after → Performs after rest last → Performs m (s :: rest) last

namespace Performs

variable {m after last : Machine} {s : Statement} {l k : List Statement}

lemma single (h : m.execute s = .next after) : Performs m [s] after :=
  .cons h .nil

lemma append (h₁ : Performs m l after) (h₂ : Performs after k last) : Performs m (l ++ k) last := by
  induction h₁ with
  | nil => exact h₂
  | cons hs _ ih => exact .cons hs (ih h₂)

lemma reachable (h : Performs m l after) (hm : m.Reachable) : after.Reachable := by
  induction h with
  | nil => exact hm
  | @cons m _ _ s _ hs _ ih =>
      have := hm.execute s
      rw [hs] at this
      exact ih this

lemma runFrom (h : Performs m l after) (index : Nat) (rest : List (Option Statement)) :
    m.runFrom index 0 (l.map some ++ rest) = after.runFrom (index + l.length) 0 rest := by
  induction h generalizing index with
  | nil => rfl
  | cons hs _ ih =>
      simp only [List.map_cons, List.cons_append, Machine.runFrom, executeSlot, hs]
      rw [ih, List.length_cons, Nat.add_assoc, Nat.add_comm 1]

end Performs

/-- A type in force needs no marker. -/
lemma performs_typeMarker {m : Machine} {modes : Modes} (h : modes.type = m.type)
    (type : ValueType) : Performs m (modes.typeMarker type.name) { m with type := type.name } := by
  unfold Modes.typeMarker
  split_ifs with heq
  · rw [heq, h]
    exact .nil
  · exact .single (by simp only [execute, Value.zeroOf_name])

/-- An operator in force needs no marker. -/
lemma performs_operatorMarker {m : Machine} {modes : Modes} (h : modes.operator = m.operator)
    (op : Text) : Performs m (modes.operatorMarker op) { m with operator := op } := by
  unfold Modes.operatorMarker
  split_ifs with heq
  · subst heq
    rw [h]
    exact .nil
  · exact .single rfl

/-! ## A machine with the variables of an interpreter -/

/-- The machine has one scope, and in it the variables of the interpreter. -/
structure Mirrors (m : Machine) (σ : Interpreter) : Prop where
  reachable : m.Reachable
  scopes : ∀ name, name ∈ m.scopes ↔ name = globalScope
  scope : m.scope = globalScope
  type : m.type = σ.type.name
  operator : m.operator = σ.operator
  values : ∀ name, m.lookup? globalScope name = σ.environment[name]?

namespace Mirrors

variable {m : Machine} {σ : Interpreter}

lemma place? (h : m.Mirrors σ) {name : Text} {v : Value} (hv : σ.environment[name]? = some v) :
    ∃ l, m.place? globalScope name = some l ∧ m.store.read? l = some v := by
  rw [← h.values, lookup?_eq] at hv
  exact Option.bind_eq_some_iff.mp hv

lemma value? (h : m.Mirrors σ) (name : Text) : m.value? name = σ.environment[name]? := by
  rw [value?_eq, h.scope, h.values]

lemma execute_declare (h : m.Mirrors σ) (name : Text) :
    m.execute (.declare name) = .next (m.declare name (.zero σ.type)) := by
  rw [execute, h.type, Value.zeroOf_name]

lemma declare (h : m.Mirrors σ) (name : Text) :
    (m.declare name (.zero σ.type)).Mirrors { σ with
      environment := σ.environment.insert name (.zero σ.type), name } where
  reachable := (Performs.single (h.execute_declare name)).reachable h.reachable
  scopes := by
    intro x
    simp only [Machine.declare, Std.TreeMap.mem_insert, Std.LawfulEqCmp.compare_eq_iff_eq,
      h.scope, h.scopes x]
    exact ⟨fun hx => hx.elim Eq.symm id, .inr⟩
  scope := h.scope
  type := h.type
  operator := h.operator
  values := by
    intro x
    rw [lookup?_declare h.reachable.sound, h.scope, Std.TreeMap.getElem?_insert, h.values]
    simp only [true_and, Std.LawfulEqCmp.compare_eq_iff_eq]
    exact if_congr eq_comm rfl rfl

/-- A load of a variable that has just been declared, and the clearing of it, change no value. -/
lemma load (h : m.Mirrors σ) {name : Text}
    (hzero : σ.environment[name]? = some (.zero σ.type)) (literal : Text) :
    ∃ after l, Performs m [.load name, .clear literal] after ∧ after.Mirrors σ ∧
      after.place? globalScope name = some l ∧ after.targets.top? = some l := by
  obtain ⟨l, hl, hread⟩ := h.place? hzero
  have hload : m.execute (.load name) = .next { m with targets := m.targets.push l } := by
    simp only [execute, locate?_eq, h.scope, hl]
  have hclear : ({ m with targets := m.targets.push l } : Machine).execute (.clear literal)
      = .next (({ m with targets := m.targets.push l } : Machine).write l (.zero σ.type)) := by
    have htarget : ({ m with targets := m.targets.push l } : Machine).target?
        = some (l, .zero σ.type) := target?_eq_some.mpr ⟨rfl, hread⟩
    exact execute_set rfl htarget (Value.zeroOf_name σ.type)
  have hperforms := Performs.cons hload (.single hclear)
  refine ⟨_, l, hperforms, ?_, hl, rfl⟩
  refine ⟨hperforms.reachable h.reachable, h.scopes, h.scope, h.type, h.operator, fun x => ?_⟩
  have hlive : ({ m with targets := m.targets.push l } : Machine).store.Live l :=
    Store.live_of_read? hread
  rw [lookup?_write hlive, ← h.values]
  split_ifs with hx
  · -- the value written is the one that was there
    have hplace : m.place? globalScope x = some l := hx
    rw [lookup?_eq, hplace, Option.bind_some, hread]
  · rfl

/-- **An operand is folded into the target as into the variable**, or fails in both. -/
lemma accumulate (h : m.Mirrors σ) {l : Location} (hl : m.place? globalScope σ.name = some l)
    (htop : m.targets.top? = some l) {s : Statement} {f operand : Value → Except Fault Value}
    (hs : m.updater? s = some f)
    (hf : ∀ acc, acc.IsNative → f acc = (operand acc).bind (Value.combine m.operator acc)) :
    (∃ w, σ.accumulate operand
        = .ok { σ with environment := σ.environment.insert σ.name w } ∧
      Performs m [s] (m.write l w) ∧
      (m.write l w).Mirrors { σ with environment := σ.environment.insert σ.name w }) ∨
    ∃ fault, σ.accumulate operand = .error fault ∧ m.execute s = .stop m fault := by
  have hsound := h.reachable.sound
  obtain ⟨acc, hread⟩ := (hsound.place? hl).read?
  have hacc : σ.environment.getD σ.name (.zero σ.type) = acc := by
    rw [Std.TreeMap.getD_eq_getD_getElem?, ← h.values, lookup?_eq, hl, Option.bind_some, hread,
      Option.getD_some]
  have htarget : m.target? = some (l, acc) := target?_eq_some.mpr ⟨htop, hread⟩
  have hfacc : f acc = (operand acc).bind (Value.combine σ.operator acc) := by
    rw [hf acc (hsound.store.read? hread), h.operator]
  rw [σ.accumulate_eq operand hacc, ← hfacc]
  cases hresult : f acc with
  | error fault =>
      exact .inr ⟨fault, rfl, execute_set_fault hs htarget hresult⟩
  | ok w =>
      have hnext := execute_set hs htarget hresult
      refine .inl ⟨w, rfl, .single hnext, ?_⟩
      refine ⟨(Performs.single hnext).reachable h.reachable, h.scopes, h.scope, h.type,
        h.operator, fun x => ?_⟩
      -- no other name stands for the place of the target
      have honly : m.place? globalScope x = some l ↔ σ.name = x :=
        ⟨fun hx => (h.reachable.distinct hl hx).2, by rintro rfl; exact hl⟩
      simp only [lookup?_write (hsound.place? hl), Std.TreeMap.getElem?_insert, h.values, honly,
        Std.LawfulEqCmp.compare_eq_iff_eq]

/-- A variable as an operand, on both sides: it is read at this moment. -/
lemma combineVariable (h : m.Mirrors σ) (name : Text) {acc : Value} (hacc : acc.IsNative) :
    m.combineVariable name acc = (σ.fetch name acc).bind (Value.combine m.operator acc) := by
  unfold Machine.combineVariable Interpreter.fetch
  rw [← h.value?]
  cases hv : m.value? name with
  | none => rfl
  | some v =>
      have hnative : v.IsNative := h.reachable.sound.value? hv
      simp only [Value.convert_eq_widen hnative hacc]
      rfl

end Mirrors

end Machine

/-! ## The three states between two tokens -/

/-- The place of the interpreter is that of the compiler: at a statement, where a name right in
front is a variable just declared, or inside the value of a variable, which is the target. -/
inductive Placed (s : State) (m : Machine) (σ : Interpreter) : Prop where
  | statement : s.place = .statement → σ.assigning = false →
      (∀ t, s.previous = some t → t.kind = .identifier →
        σ.name = t.literal ∧ σ.environment[t.literal]? = some (.zero σ.type)) → Placed s m σ
  | expression {begun : Bool} {l : Location} : s.place = .expression begun →
      σ.assigning = true → m.place? globalScope σ.name = some l → m.targets.top? = some l →
      Placed s m σ

/-- The compiler, the machine and the interpreter agree. -/
structure Agrees (s : State) (m : Machine) (σ : Interpreter) : Prop extends m.Mirrors σ where
  modes : s.modes = ⟨σ.type.name, σ.operator⟩
  blocks : s.blocks = []
  placed : Placed s m σ

lemma mem_statementTokens_tail {σ next : Interpreter} {t u : Token} {ts : List Token}
    (hstep : σ.step t = .ok next) (hu : u ∈ statementTokens next.assigning ts) :
    u ∈ statementTokens σ.assigning (t :: ts) := by
  rw [Interpreter.step_assigning hstep] at hu
  cases hassigning : σ.assigning <;> simp_all [statementTokens]

namespace Agrees

variable {s s' : State} {m : Machine} {σ : Interpreter} {t : Token} {out : List Statement}
  {strict : Bool}

/-- What one token leads to. -/
def Next (t : Token) (out : List Statement) (s' : State) (m : Machine) (σ : Interpreter) : Prop :=
  (∃ next after, σ.step t = .ok next ∧ Performs m out after ∧ Agrees s' after next) ∨
  ∃ fault, σ.step t = .error fault ∧ t.isOperand ∧ out = [t.operandStatement] ∧
    m.execute t.operandStatement = .stop m fault

lemma typeWord (h : Agrees s m σ) (hs : s.place = .statement) (ht : t.kind = .type)
    (htype : ∃ type, ValueType.ofName? t.literal = some type) :
    Next t (s.modes.typeMarker t.literal)
      { s.read t with modes := { s.modes with type := t.literal } } m σ := by
  obtain ⟨type, htype⟩ := htype
  have hname := ValueType.name_of_ofName? htype
  cases h.placed with
  | expression hplace => simp [hs] at hplace
  | statement _ hassigning _ =>
      have hforce : s.modes.type = m.type := by rw [h.modes, h.type]
      have hperforms := performs_typeMarker hforce type
      rw [hname] at hperforms
      refine .inl ⟨{ σ with type }, _, by simp [Interpreter.step, hassigning, ht, htype],
        hperforms, ⟨hperforms.reachable h.reachable, h.scopes, h.scope, hname.symm, h.operator,
          h.values⟩, ?_, h.blocks, .statement hs hassigning ?_⟩
      · simp [h.modes, hname]
      · intro u hu hk
        simp [← Option.some.inj hu, ht] at hk

lemma declare (h : Agrees s m σ) (hs : s.place = .statement) (ht : t.kind = .identifier) :
    Next t [.declare t.literal] (s.read t) m σ := by
  cases h.placed with
  | expression hplace => simp [hs] at hplace
  | statement _ hassigning _ =>
      refine .inl ⟨_, _, by simp only [Interpreter.step, hassigning, ht]; rfl,
        .single (h.execute_declare t.literal), h.toMirrors.declare t.literal, h.modes, h.blocks,
        .statement hs hassigning ?_⟩
      intro u hu _
      obtain rfl := Option.some.inj hu
      exact ⟨rfl, by simp⟩

/-- Right behind a name, an equals sign makes it the target. -/
lemma equals (h : Agrees s m σ) (hs : s.place = .statement) (ht : t.kind = .equals) {name : Token}
    (hprev : s.previous = some name) (hname : name.kind = .identifier) (literal : Text) :
    Next t ([.load name.literal, .clear literal] ++ s.modes.restartMarker)
      { s.read t with modes := s.modes.restart, place := .expression false } m σ := by
  cases h.placed with
  | expression hplace => simp [hs] at hplace
  | statement _ hassigning hdeclared =>
      obtain ⟨hlast, hzero⟩ := hdeclared name hprev hname
      obtain ⟨loaded, l, hload, hmirrors, hl, htop⟩ := h.toMirrors.load hzero literal
      have hbool : s.modes.type = "bool" ↔ σ.type = .bool := by
        rw [h.modes]
        exact ValueType.name_inj (u := .bool)
      have hmodes : s.modes.restart
          = ⟨σ.type.name, if σ.type = .bool then σ.operator else "+"⟩ := by
        by_cases hb : σ.type = .bool
        · rw [Modes.restart, if_pos (hbool.mpr hb), if_pos hb, h.modes]
        · rw [Modes.restart, if_neg (mt hbool.mp hb), if_neg hb, h.modes]
      -- the operator that the markers leave is the one that the interpreter takes
      have hrestart : Performs loaded s.modes.restartMarker
          { loaded with operator := if σ.type = .bool then σ.operator else "+" } := by
        by_cases hb : σ.type = .bool
        · rw [Modes.restartMarker, if_pos (hbool.mpr hb), if_pos hb, ← hmirrors.operator]
          exact .nil
        · rw [Modes.restartMarker, if_neg (mt hbool.mp hb), if_neg hb]
          exact performs_operatorMarker (by rw [h.modes, hmirrors.operator]) "+"
      have hperforms := hload.append hrestart
      exact .inl ⟨
        { σ with operator := if σ.type = .bool then σ.operator else "+", assigning := true }, _,
        by simp [Interpreter.step, hassigning, ht], hperforms,
        ⟨hperforms.reachable h.reachable, hmirrors.scopes, hmirrors.scope, hmirrors.type, rfl,
          hmirrors.values⟩, hmodes, h.blocks, .expression rfl rfl (hlast ▸ hl) htop⟩

/-- A number or a name inside an expression. -/
lemma fold (h : Agrees s m σ) {l : Location} (hassigning : σ.assigning = true)
    (hl : m.place? globalScope σ.name = some l) (htop : m.targets.top? = some l)
    {f operand : Value → Except Fault Value} (ht : t.isOperand)
    (hstep : σ.step t = σ.accumulate operand) (hs : m.updater? t.operandStatement = some f)
    (hf : ∀ acc, acc.IsNative → f acc = (operand acc).bind (Value.combine m.operator acc)) :
    Next t [t.operandStatement] { s.read t with place := .expression true } m σ := by
  rcases h.toMirrors.accumulate hl htop hs hf
    with ⟨w, hnext, hperforms, hmirrors⟩ | ⟨fault, hfault, hstop⟩
  · exact .inl ⟨_, _, hstep.trans hnext, hperforms, hmirrors, h.modes, h.blocks,
      .expression rfl hassigning hl htop⟩
  · exact .inr ⟨fault, hstep.trans hfault, ht, rfl, hstop⟩

/-- A token inside an expression that does not end it. -/
lemma operand (h : Agrees s m σ) {begun : Bool} (hs : s.place = .expression begun)
    (ht : t.kind ≠ .terminator) :
    Next t (expressionCode s.modes [t])
      { s.read t with modes := expressionModes s.modes [t], place := .expression true } m σ := by
  cases h.placed with
  | statement hplace => simp [hs] at hplace
  | @expression _ l _ hassigning hl htop =>
      cases hk : t.kind with
      | terminator => exact absurd hk ht
      | number =>
          have hpush : t.operandStatement = .push t.literal := by simp [Token.operandStatement, hk]
          have hstep : σ.step t = σ.accumulate fun acc => Value.read acc.type t.literal := by
            simp [Interpreter.step, hassigning, hk]
          have hfold := h.fold hassigning hl htop (.inl hk) hstep (by rw [hpush]; rfl)
            (fun acc _ => rfl)
          simpa [expressionCode, expressionModes, hk, hpush, State.read] using hfold
      | identifier =>
          have hget : t.operandStatement = .get t.literal := by simp [Token.operandStatement, hk]
          have hstep : σ.step t = σ.accumulate (σ.fetch t.literal) := by
            simp [Interpreter.step, hassigning, hk]
          have hfold := h.fold hassigning hl htop (.inr hk) hstep (by rw [hget]; rfl)
            (fun acc hacc => h.toMirrors.combineVariable t.literal hacc)
          simpa [expressionCode, expressionModes, hk, hget, State.read] using hfold
      | binaryOperator =>
          have hoperator : s.modes.operator = m.operator := by rw [h.modes, h.operator]
          have hperforms := performs_operatorMarker hoperator t.literal
          refine .inl ⟨{ σ with operator := t.literal }, _,
            by simp [Interpreter.step, hassigning, hk],
            by simpa [expressionCode, hk] using hperforms,
            ⟨hperforms.reachable h.reachable, h.scopes, h.scope, h.type, rfl, h.values⟩, ?_,
            h.blocks, .expression rfl hassigning hl htop⟩
          simp [expressionModes, hk, h.modes]
      | _ =>
          refine .inl ⟨σ, m, by simp [Interpreter.step, hassigning, hk],
            by simpa [expressionCode, hk] using Performs.nil, h.toMirrors, ?_, h.blocks,
            .expression rfl hassigning hl htop⟩
          simp [expressionModes, hk, h.modes]

/-- **One token leads from agreement to agreement, or to one failure**, if it does not start a
condition. -/
theorem move (h : Agrees s m σ) (hmove : Move ⟨.standard, strict⟩ s t out s')
    (htype : t.kind = .type → ∃ type, ValueType.ofName? t.literal = some type)
    (hif : σ.assigning = false → t.kind = .keyword → t.literal ≠ "if") : Next t out s' m σ := by
  have hstatement (hs : s.place = .statement) : σ.assigning = false := by
    cases h.placed with
    | statement _ hassigning _ => exact hassigning
    | expression hplace => simp [hs] at hplace
  cases hmove with
  | type hs ht => exact h.typeWord hs ht (htype ht)
  | declare hs ht => exact h.declare hs ht
  | equals hs ht hprev hname => exact h.equals hs ht hprev hname _
  | ignored hs ht _ _ =>
      have hassigning := hstatement hs
      refine .inl ⟨σ, m, by simp [Interpreter.step, hassigning, ht], .nil, h.toMirrors, h.modes,
        h.blocks, .statement hs hassigning ?_⟩
      intro u hu hk
      simp [← Option.some.inj hu, ht] at hk
  | keyword hs ht hsome =>
      -- the one keyword with a handler is `if`
      refine absurd ?_ (hif (hstatement hs) ht)
      simp only [Keywords.standard, Std.TreeMap.getElem?_insert, Std.TreeMap.getElem?_emptyc,
        Std.LawfulEqCmp.compare_eq_iff_eq] at hsome
      split_ifs at hsome with hword
      exact hword.symm
  | closing _ _ hblocks => simp [h.blocks] at hblocks
  | operand hs ht => exact h.operand hs ht
  | terminator hs ht =>
      cases h.placed with
      | statement hplace => simp [hs] at hplace
      | expression _ hassigning _ _ =>
          refine .inl ⟨{ σ with assigning := false }, m,
            by simp [Interpreter.step, hassigning, ht], .nil,
            ⟨h.reachable, h.scopes, h.scope, h.type, h.operator, h.values⟩, h.modes, h.blocks,
            .statement rfl rfl ?_⟩
          intro u hu hk
          simp [← Option.some.inj hu, ht] at hk
  | head hs => cases h.placed with
      | statement hplace | expression hplace => simp [hs] at hplace
  | opening hs => cases h.placed with
      | statement hplace | expression hplace => simp [hs] at hplace

/-- **All tokens in a row.**  The machine ends with the variables of the interpreter, and fails if
and only if the interpreter does: at the statement of the operand at which it does, which stands
behind all that the tokens before were compiled to. -/
theorem run {ts : List Token} (h : Agrees s m σ) (hreads : Reads ⟨.standard, strict⟩ s ts out s')
    (htypes : ∀ t ∈ ts, t.kind = .type → ∃ type, ValueType.ofName? t.literal = some type)
    (hif : ∀ t ∈ statementTokens σ.assigning ts, t.kind = .keyword → t.literal ≠ "if")
    (index first : Nat) :
    (m.runFrom index 0 (out.map some)).machine.Mirrors (σ.run first ts).state ∧
    ((σ.run first ts).failure = none → (m.runFrom index 0 (out.map some)).error = none) ∧
    ∀ n fault, (σ.run first ts).failure = some (n, fault) →
      ∃ k t, n = first + k ∧ ts[k]? = some t ∧ t.isOperand ∧
        (m.runFrom index 0 (out.map some)).error
          = some ⟨index + (Dialect.read ⟨.standard, strict⟩ s (ts.take k)).statements.length,
              some t.operandStatement, fault⟩ := by
  induction ts generalizing s m σ out index first with
  | nil =>
      have hout : out = [] := hreads.statements.symm
      subst hout
      exact ⟨h.toMirrors, fun _ => rfl, by simp [Interpreter.run]⟩
  | cons t ts ih =>
      obtain ⟨s₁, hnext, hrest, rfl⟩ := hreads.first
      rw [List.map_append]
      have hmove : Move ⟨.standard, strict⟩ s t _ s₁ := .of_step hnext
      rcases h.move hmove (htypes t (by simp)) (fun hassigning => hif t (by
          simp [hassigning, statementTokens])) with
        ⟨next, after, hstep, hperforms, hagrees⟩ | ⟨fault, hstep, hoperand, hout, hstop⟩
      · have hrun : σ.run first (t :: ts) = next.run (first + 1) ts := by
          simp only [Interpreter.run, hstep]
        obtain ⟨hmirrors, hgood, hbad⟩ := ih hagrees hrest
          (fun u hu => htypes u (by simp [hu]))
          (fun u hu => hif u (mem_statementTokens_tail hstep hu)) _ (first + 1)
        rw [hrun, hperforms.runFrom]
        refine ⟨hmirrors, hgood, fun n fault hfailure => ?_⟩
        obtain ⟨k, u, rfl, hu, hoperand, herror⟩ := hbad n fault hfailure
        refine ⟨k + 1, u, by omega, hu, hoperand, ?_⟩
        rw [herror, List.take_succ_cons, (Dialect.read_cons hnext _).2, List.length_append,
          Nat.add_assoc]
      · have hrun : σ.run first (t :: ts) = ⟨σ, some (first, fault)⟩ := by
          simp only [Interpreter.run, hstep]
        rw [hrun, hout]
        simp only [List.map_cons, List.map_nil, List.cons_append, Machine.runFrom, executeSlot,
          hstop]
        refine ⟨h.toMirrors, by simp, fun n fault' hfailure => ?_⟩
        obtain ⟨rfl, rfl⟩ := Prod.mk.inj (Option.some.inj hfailure)
        exact ⟨0, t, rfl, rfl, hoperand, rfl⟩

/-- Behind the three markers of every listing, all agree. -/
lemma initial : ∃ m, Performs Machine.new seedMarkers m ∧ Agrees .initial m .new := by
  have hperforms : Performs Machine.new seedMarkers (Machine.new.enter globalScope) :=
    .cons rfl (.cons rfl (.single rfl))
  refine ⟨_, hperforms, ⟨hperforms.reachable .new, fun name => ?_, rfl, rfl, rfl, fun name => ?_⟩,
    rfl, rfl, .statement rfl rfl (by simp [State.initial])⟩
  · simp only [Machine.enter, Machine.new, Std.TreeMap.mem_insertIfNew, Std.TreeMap.mem_insert,
      Std.LawfulEqCmp.compare_eq_iff_eq, Std.TreeMap.not_mem_emptyc, or_false, or_self]
    exact eq_comm
  · rw [lookup?_enter]
    simp [Machine.lookup?, Machine.new, Interpreter.new]

end Agrees

/-! ## What can be seen of the machine -/

namespace Machine.Mirrors

variable {m : Machine} {σ : Interpreter}

lemma scopeNames (h : m.Mirrors σ) : m.scopeNames = [globalScope] := by
  have hnew (name : Text) : name ∈ Machine.new.scopes ↔ name = globalScope := by
    simp only [Machine.new, Std.TreeMap.mem_insert, Std.LawfulEqCmp.compare_eq_iff_eq,
      Std.TreeMap.not_mem_emptyc, or_false]
    exact eq_comm
  calc m.scopeNames = Machine.new.scopeNames :=
        scopeNames_congr fun name => (h.scopes name).trans (hnew name).symm
    _ = [globalScope] := by decide +kernel

/-- The variables of the one scope are those of the interpreter, in the same order. -/
lemma bindings (h : m.Mirrors σ) : m.bindings globalScope = σ.environment.toList := by
  rw [bindings_eq_toList]
  refine Std.TreeMap.Equiv.toList_eq (.of_forall_constGet?_eq fun name => ?_)
  rw [valuesIn_getElem?, h.values]

end Machine.Mirrors

/-- What a compilation has emitted, whether it succeeds or not. -/
lemma Dialect.compile_emitted (d : Dialect) (ts : List Token) :
    (d.compile ts).emitted = seedMarkers ++ (d.read .initial ts).statements := by
  have hemitted (step : Step) : step.compilation.emitted = step.statements := by
    obtain ⟨events, next⟩ := step
    cases next with
    | error e => simp [Step.compilation, Compilation.emitted, Compilation.fail, Step.statements]
    | ok s => cases hfin : s.finish <;>
        simp [Step.compilation, Compilation.emitted, Compilation.fail, Step.statements, hfin]
  rw [← hemitted, ← compileFrom_eq_read, ← Modes.opening_statements]
  simp [Dialect.compile, Compilation.emitted, Compilation.prepend]

/-- **Straight programs compute what their source says.**  Take any source that compiles and has no
`if` in statement position.  The run of its listing on a new machine leaves one scope, with exactly
the variables and values that the interpreter leaves, and the same modes.  If the interpreter
succeeds, so does the run.  If the interpreter fails, it is at an operand, and the run fails for
the same reason at the statement that this operand was compiled to. -/
theorem run_eq_interpretation (strict : Bool) (source : Text) (ts : List Token)
    (listing : List Statement) (hscan : scan source = .ok ts)
    (hlisting : Dialect.listing ⟨.standard, strict⟩ source = .ok listing)
    (hif : ∀ t ∈ statementTokens false ts, t.kind = .keyword → t.literal ≠ "if") :
    let r := Machine.new.run listing
    let o := Interpreter.new.run 0 ts
    r.machine.scopeNames = ["global"] ∧
    r.machine.bindings "global" = o.state.environment.toList ∧
    r.machine.type = o.state.type.name ∧ r.machine.operator = o.state.operator ∧
    (o.failure = none → r.error = none) ∧
    ∀ k fault, o.failure = some (k, fault) → ∃ t, ts[k]? = some t ∧ t.isOperand ∧
      r.error = some ⟨(Dialect.compile ⟨.standard, strict⟩ (ts.take k)).emitted.length,
        some t.operandStatement, fault⟩ := by
  intro r o
  obtain ⟨ts', hscan', hcompile⟩ := Dialect.listing_eq_ok hlisting
  obtain rfl : ts' = ts := Except.ok.inj (hscan'.symm.trans hscan)
  obtain ⟨out, s', hreads, _, rfl⟩ := listing_eq_ok_iff_reads.mp hcompile
  obtain ⟨m, hperforms, hagrees⟩ := Agrees.initial
  have hrun : r = m.runFrom seedMarkers.length 0 (out.map some) := by
    rw [← Nat.zero_add seedMarkers.length, ← hperforms.runFrom 0, ← List.map_append]
    rfl
  obtain ⟨hmirrors, hgood, hbad⟩ := hagrees.run hreads
    (fun t ht => scan_type_literal hscan ht) hif seedMarkers.length 0
  rw [← hrun] at hmirrors hgood hbad
  refine ⟨hmirrors.scopeNames, hmirrors.bindings, hmirrors.type, hmirrors.operator, hgood,
    fun k fault hfailure => ?_⟩
  obtain ⟨k', t, hk, ht, hoperand, herror⟩ := hbad k fault hfailure
  rw [Nat.zero_add] at hk
  subst hk
  refine ⟨t, ht, hoperand, ?_⟩
  rw [herror, Dialect.compile_emitted, List.length_append]

/-- The operator `*` survives in the assignment to `b`; then `y` is multiplied by the value that it
has so far, and divided by zero. -/
theorem run_eq_interpretation_partial_value :
    let source : Text := "x = 5 * 2; bool b = b; int y = x * y / 0;"
    let ts : List Token :=
      [⟨.identifier, "x", 1, 1⟩, ⟨.equals, "=", 1, 3⟩, ⟨.number, "5", 1, 5⟩,
        ⟨.binaryOperator, "*", 1, 7⟩, ⟨.number, "2", 1, 9⟩, ⟨.terminator, ";", 1, 10⟩,
        ⟨.type, "bool", 1, 12⟩, ⟨.identifier, "b", 1, 17⟩, ⟨.equals, "=", 1, 19⟩,
        ⟨.identifier, "b", 1, 21⟩, ⟨.terminator, ";", 1, 22⟩, ⟨.type, "int", 1, 24⟩,
        ⟨.identifier, "y", 1, 28⟩, ⟨.equals, "=", 1, 30⟩, ⟨.identifier, "x", 1, 32⟩,
        ⟨.binaryOperator, "*", 1, 34⟩, ⟨.identifier, "y", 1, 36⟩, ⟨.binaryOperator, "/", 1, 38⟩,
        ⟨.number, "0", 1, 40⟩, ⟨.terminator, ";", 1, 41⟩]
    ∃ listing, scan source = .ok ts ∧ Dialect.listing ⟨.standard, true⟩ source = .ok listing ∧
      (∀ t ∈ statementTokens false ts, t.kind = .keyword → t.literal ≠ "if") ∧
      (Interpreter.new.run 0 ts).failure = some (18, .divisionByZero) ∧
      (Machine.new.run listing).machine.bindings "global"
        = ([("b", .bool false), ("x", .int 10), ("y", .int 100)] : List (Text × Value)) ∧
      (Machine.new.run listing).error = some ⟨23, some (.push "0"), .divisionByZero⟩ := by
  intro source ts
  let listing := (Dialect.compile ⟨.standard, true⟩ ts).emitted
  have hscan : scan source = .ok ts := by decide +kernel
  have hlisting : Dialect.listing ⟨.standard, true⟩ source = .ok listing := by
    simp only [Dialect.listing, Dialect.compileSource, hscan]
    decide +kernel
  have hif : ∀ t ∈ statementTokens false ts, t.kind = .keyword → t.literal ≠ "if" := by
    decide +kernel
  have hfailure : (Interpreter.new.run 0 ts).failure = some (18, .divisionByZero) := by
    decide +kernel
  obtain ⟨_, hbindings, _, _, _, hfails⟩ :=
    run_eq_interpretation true source ts listing hscan hlisting hif
  obtain ⟨t, ht, _, herror⟩ := hfails 18 .divisionByZero hfailure
  obtain rfl : ⟨.number, "0", 1, 40⟩ = t := Option.some.inj ht
  have hlength : (Dialect.compile ⟨.standard, true⟩ (ts.take 18)).emitted.length = 23 := by
    decide +kernel
  refine ⟨listing, hscan, hlisting, hif, hfailure, ?_, ?_⟩
  · rw [hbindings]
    decide +kernel
  · rw [herror, hlength]
    rfl

end Scriptlet
