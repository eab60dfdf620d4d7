import Mathlib
import Scriptlet.Proofs.Grammar

/-!
# The compiler accepts its grammar

`Dialect.compile` is a state machine that sees one token at a time.  Here it meets the grammar of
`Scriptlet.Proofs.Grammar`, in both directions.

**From the grammar to the machine.**  `Dialect.read` is what a stretch of tokens leads to, and it
composes (`read_append`).  `Move` says for each kind of token at each place where the machine goes
and what it emits, and `Derives.reads` chains moves along a derivation: the tokens of a program take
the machine from a statement to a statement, with the same blocks open, and emit the code of the
program.

**From the machine to the grammar.**  `Demands d s ts` says what a state still needs to see: at a
statement, programs and closing delimiters for all the blocks that are open; inside an expression
or a head, the end of it first.  A move passes the demand of its next state back
(`Demands.of_move`), and every step that succeeds is a move, so a run that ends well has met the
demand of the initial state, which is a program.

* **`compile_listing_iff`** — a list of tokens compiles exactly if it is a program, it is only one,
  and the listing is the code of that program behind the three markers.
-/

namespace Scriptlet

open Compile

/-! ## Stretches of tokens -/

namespace Event

@[simp] lemma statements_emit (s : Statement) (events : List Event) :
    (emit s :: events).filterMap statement? = s :: events.filterMap statement? := rfl

@[simp] lemma statements_call (word : Text) (head : List Token) (events : List Event) :
    (call word head :: events).filterMap statement? = events.filterMap statement? := rfl

@[simp] lemma statements_note (n : Note) (events : List Event) :
    (note n :: events).filterMap statement? = events.filterMap statement? := rfl

@[simp] lemma statements_map_emit (l : List Statement) :
    l.filterMap (fun s => (emit s).statement?) = l :=
  List.filterMap_some

end Event

namespace Compile.Step

/-- Goes on from the state that a step leads to. -/
def andThen (step : Step) (next : State → Step) : Step :=
  match step.next with
  | .ok s => ⟨step.events ++ (next s).events, (next s).next⟩
  | .error e => ⟨step.events, .error e⟩

/-- The statements that a step emits. -/
def statements (step : Step) : List Statement :=
  step.events.filterMap Event.statement?

/-- The compilation whose tokens end behind a step. -/
def compilation (step : Step) : Compilation :=
  match step.next with
  | .ok s =>
    match s.finish with
    | none => ⟨step.events, none⟩
    | some e => .fail step.events e
  | .error e => .fail step.events e

lemma andThen_assoc (step : Step) (f g : State → Step) :
    (step.andThen f).andThen g = step.andThen fun s => (f s).andThen g := by
  obtain ⟨events, next⟩ := step
  cases next with
  | error e => rfl
  | ok s => cases h : (f s).next <;> simp [andThen, h]

lemma compilation_andThen {step : Step} {s : State} (f : State → Step) (h : step.next = .ok s) :
    (step.andThen f).compilation = (f s).compilation.prepend step.events := by
  simp only [andThen, h, compilation]
  split
  · split <;> simp [Compilation.prepend, Compilation.fail]
  · simp [Compilation.prepend, Compilation.fail]

end Compile.Step

/-- What a stretch of tokens leads to. -/
def Dialect.read (d : Dialect) (s : State) : List Token → Step
  | [] => ⟨[], .ok s⟩
  | t :: rest => (d.step s t).andThen (d.read · rest)

lemma Dialect.read_append (d : Dialect) (s : State) (a b : List Token) :
    d.read s (a ++ b) = (d.read s a).andThen (d.read · b) := by
  induction a generalizing s with
  | nil => simp [Dialect.read, Step.andThen]
  | cons t a ih =>
      simp only [List.cons_append, Dialect.read, Step.andThen_assoc]
      congr 1
      funext next
      exact ih next

/-- A compilation is a reading of all the tokens. -/
lemma Dialect.compileFrom_eq_read (d : Dialect) (s : State) (ts : List Token) :
    d.compileFrom s ts = (d.read s ts).compilation := by
  induction ts generalizing s with
  | nil =>
      cases hfin : s.finish <;>
        simp [Dialect.compileFrom, Dialect.read, Step.compilation, hfin]
  | cons t ts ih =>
      rw [Dialect.compileFrom, Dialect.read]
      cases hstep : d.step s t with
      | mk events next =>
          cases next with
          | ok s' => simp [ih, Step.compilation_andThen (s := s')]
          | error e => simp [Step.andThen, Step.compilation]

lemma Dialect.read_cons {d : Dialect} {s s₁ : State} {t : Token}
    (h : (d.step s t).next = .ok s₁) (ts : List Token) :
    (d.read s (t :: ts)).next = (d.read s₁ ts).next ∧
      (d.read s (t :: ts)).statements = (d.step s t).statements ++ (d.read s₁ ts).statements := by
  simp [Dialect.read, Step.andThen, h, Step.statements]

/-- The tokens take the compiler from one state to another, and it emits these statements on the
way. -/
structure Reads (d : Dialect) (s : State) (ts : List Token) (out : List Statement) (s' : State) :
    Prop where
  next : (d.read s ts).next = .ok s'
  statements : (d.read s ts).statements = out

namespace Reads

variable {d : Dialect} {s s₁ s₂ : State} {t : Token} {ts us : List Token}
  {out out₁ out₂ : List Statement}

lemma nil : Reads d s [] [] s :=
  ⟨rfl, rfl⟩

lemma append (h₁ : Reads d s ts out₁ s₁) (h₂ : Reads d s₁ us out₂ s₂) :
    Reads d s (ts ++ us) (out₁ ++ out₂) s₂ := by
  constructor
  · simp [Dialect.read_append, Step.andThen, h₁.next, h₂.next]
  · rw [← h₁.statements, ← h₂.statements]
    simp [Dialect.read_append, Step.andThen, h₁.next, Step.statements]

lemma cons (h₁ : Reads d s [t] out₁ s₁) (h₂ : Reads d s₁ ts out₂ s₂) :
    Reads d s (t :: ts) (out₁ ++ out₂) s₂ :=
  h₁.append h₂

/-- The first token of a reading that succeeds is accepted, and the reading goes on from there. -/
lemma first (h : Reads d s (t :: ts) out s₂) : ∃ s₁, (d.step s t).next = .ok s₁ ∧
    Reads d s₁ ts (d.read s₁ ts).statements s₂ ∧
    out = (d.step s t).statements ++ (d.read s₁ ts).statements := by
  cases hstep : (d.step s t).next with
  | error e => simpa [Dialect.read, Step.andThen, hstep] using h.next
  | ok s₁ =>
      obtain ⟨hnext, hout⟩ := Dialect.read_cons hstep ts
      exact ⟨s₁, rfl, ⟨hnext ▸ h.next, rfl⟩, by rw [← hout, h.statements]⟩

end Reads

/-! ## Changes of mode -/

namespace Modes

variable (m : Modes)

@[simp] lemma setType_modes (type : Text) : (m.setType type).1 = { m with type } := by
  unfold setType
  split_ifs with h
  · simp [h]
  · rfl

@[simp] lemma setType_statements (type : Text) :
    (m.setType type).2.filterMap Event.statement? = m.typeMarker type := by
  unfold setType typeMarker
  split_ifs <;> rfl

@[simp] lemma setOperator_modes (operator : Text) :
    (m.setOperator operator).1 = { m with operator } := by
  unfold setOperator
  split_ifs with h
  · simp [h]
  · rfl

@[simp] lemma setOperator_statements (operator : Text) :
    (m.setOperator operator).2.filterMap Event.statement? = m.operatorMarker operator := by
  unfold setOperator operatorMarker
  split_ifs <;> rfl

@[simp] lemma startExpression_modes : m.startExpression.1 = m.restart := by
  unfold startExpression restart
  split_ifs
  · rfl
  · exact m.setOperator_modes _

@[simp] lemma startExpression_statements :
    m.startExpression.2.filterMap Event.statement? = m.restartMarker := by
  unfold startExpression restartMarker
  split_ifs
  · rfl
  · exact m.setOperator_statements _

end Modes

/-! ## Single tokens

`Move` lists all that one token can do when it is accepted: a row for each kind of token at each
place.  The step of the compiler makes exactly these moves. -/

/-- The moves of the compiler, with the statements that each emits. -/
inductive Move (d : Dialect) (s : State) (t : Token) : List Statement → State → Prop where
  | type : s.place = .statement → t.kind = .type →
      Move d s t (s.modes.typeMarker t.literal)
        { s.read t with modes := { s.modes with type := t.literal } }
  | declare : s.place = .statement → t.kind = .identifier →
      Move d s t [.declare t.literal] (s.read t)
  /-- An equals sign looks back at the token before it, which is the name just declared. -/
  | equals {name : Token} : s.place = .statement → t.kind = .equals → s.previous = some name →
      name.kind = .identifier →
      Move d s t
        ([.load name.literal,
          .clear (if s.modes.type = "int" ∨ s.modes.type = "float" then "0" else "false")] ++
          s.modes.restartMarker)
        { s.read t with modes := s.modes.restart, place := .expression false }
  | ignored : s.place = .statement → t.kind = .keyword → d.keywords[t.literal]? = none →
      d.strict = false → Move d s t [] (s.read t)
  | keyword {handler : Handler} : s.place = .statement → t.kind = .keyword →
      d.keywords[t.literal]? = some handler →
      Move d s t [] { s.read t with place := .head handler t s.index [] }
  | closing {word : Text} {outer : List Text} : s.place = .statement → t.kind = .closeDelim →
      s.blocks = word :: outer → Move d s t [.endBlock] { s.read t with blocks := outer }
  | operand {begun : Bool} : s.place = .expression begun → t.kind ≠ .terminator →
      Move d s t (expressionCode s.modes [t])
        { s.read t with modes := expressionModes s.modes [t], place := .expression true }
  | terminator {begun : Bool} : s.place = .expression begun → t.kind = .terminator →
      Move d s t [] { s.read t with place := .statement }
  | head {handler : Handler} {word : Token} {index : Nat} {tokens : List Token} :
      s.place = .head handler word index tokens → t.kind ≠ .openDelim →
      Move d s t [] { s.read t with place := .head handler word index (tokens ++ [t]) }
  | opening {handler : Handler} {word : Token} {index : Nat} {tokens : List Token}
      {front : List Statement} : s.place = .head handler word index tokens →
      t.kind = .openDelim → handler tokens = .ok front →
      Move d s t (front ++ if front.any Statement.opensBlock then [] else [.beginBlock])
        { s.read t with place := .statement, blocks := word.literal :: s.blocks }

section Moves

variable {d : Dialect} {s s' : State} {t : Token}

/-- A token inside an expression that does not end it. -/
lemma step_operand {begun : Bool} (hs : s.place = .expression begun) (ht : t.kind ≠ .terminator) :
    (d.step s t).next = .ok { s.read t with
        modes := expressionModes s.modes [t], place := .expression true } ∧
      (d.step s t).statements = expressionCode s.modes [t] := by
  cases hk : t.kind <;>
    simp_all [Dialect.step, Step.expression, Step.statements, expressionCode, expressionModes,
      State.read]

lemma step_opening {handler : Handler} {word : Token} {index : Nat} {tokens : List Token}
    {front : List Statement} (hs : s.place = .head handler word index tokens)
    (ht : t.kind = .openDelim) (hfront : handler tokens = .ok front) :
    (d.step s t).next = .ok { s.read t with
        place := .statement, blocks := word.literal :: s.blocks } ∧
      (d.step s t).statements
        = front ++ if front.any Statement.opensBlock then [] else [.beginBlock] := by
  constructor
  · simp [Dialect.step, Step.head, hs, ht, hfront]
  · simp only [Dialect.step, Step.head, hs, ht, hfront, Step.statements, if_true, Step.openBody]
    split_ifs <;> simp

/-- Every move is a step. -/
lemma Move.step {out : List Statement} (h : Move d s t out s') :
    (d.step s t).next = .ok s' ∧ (d.step s t).statements = out := by
  cases h with
  | type hs ht =>
      simp [Dialect.step, Dialect.statement, Dialect.start, Step.statements, hs, ht]
  | declare hs ht =>
      simp [Dialect.step, Dialect.statement, Dialect.start, Step.statements, hs, ht]
  | @equals name hs ht hprev hname =>
      obtain ⟨kind, literal, line, col⟩ := name
      subst hname
      simp [Dialect.step, Dialect.statement, Dialect.start, Step.assign, Step.statements,
        Modes.zeroLiteral, hs, ht, hprev]
  | ignored hs ht hnone hstrict =>
      simp [Dialect.step, Dialect.statement, Dialect.start, Dialect.keyword, Step.statements,
        hs, ht, hnone, hstrict]
  | keyword hs ht hsome =>
      simp [Dialect.step, Dialect.statement, Dialect.start, Dialect.keyword, Step.statements,
        hs, ht, hsome]
  | closing hs ht hblocks =>
      simp [Dialect.step, Dialect.statement, Step.statements, hs, ht, hblocks]
  | operand hs ht => exact step_operand hs ht
  | terminator hs ht => simp [Dialect.step, Step.expression, Step.statements, hs, ht]
  | head hs ht => simp [Dialect.step, Step.head, Step.statements, hs, ht]
  | opening hs ht hfront => exact step_opening hs ht hfront

lemma Move.reads {out : List Statement} (h : Move d s t out s') : Reads d s [t] out s' := by
  obtain ⟨hnext, hout⟩ := h.step
  constructor <;> simp_all [Dialect.read, Step.andThen, Step.statements]

/-- **Every step that accepts its token is one of the moves.** -/
theorem Move.of_step (h : (d.step s t).next = .ok s') :
    Move d s t (d.step s t).statements s' := by
  -- the move is found by the place and the kind; what it emits is then known from `Move.step`
  suffices hmove : ∃ out s'', Move d s t out s'' by
    obtain ⟨out, s'', hmove⟩ := hmove
    obtain ⟨hnext, hout⟩ := hmove.step
    rw [h, Except.ok.injEq] at hnext
    rw [hout, hnext]
    exact hmove
  cases hs : s.place with
  | statement =>
      cases hk : t.kind with
      | type => exact ⟨_, _, .type hs hk⟩
      | identifier => exact ⟨_, _, .declare hs hk⟩
      | equals =>
          cases hprev : s.previous with
          | none =>
              simp [Dialect.step, Dialect.statement, Dialect.start, Step.assign, Step.refuse,
                hs, hk, hprev] at h
          | some name =>
              by_cases hname : name.kind = .identifier
              · exact ⟨_, _, .equals hs hk hprev hname⟩
              · obtain ⟨kind, literal, line, col⟩ := name
                cases kind <;>
                  simp_all [Dialect.step, Dialect.statement, Dialect.start, Step.assign,
                    Step.refuse]
      | keyword =>
          cases hfound : d.keywords[t.literal]? with
          | some handler => exact ⟨_, _, .keyword hs hk hfound⟩
          | none =>
              cases hstrict : d.strict with
              | false => exact ⟨_, _, .ignored hs hk hfound hstrict⟩
              | true =>
                  simp [Dialect.step, Dialect.statement, Dialect.start, Dialect.keyword,
                    Step.refuse, hs, hk, hfound, hstrict] at h
      | closeDelim =>
          cases hblocks : s.blocks with
          | cons word outer => exact ⟨_, _, .closing hs hk hblocks⟩
          | nil =>
              simp [Dialect.step, Dialect.statement, Dialect.start, Step.refuse, hs, hk,
                hblocks] at h
      | _ => simp [Dialect.step, Dialect.statement, Dialect.start, Step.refuse, hs, hk] at h
  | expression begun =>
      by_cases hk : t.kind = .terminator
      · exact ⟨_, _, .terminator hs hk⟩
      · exact ⟨_, _, .operand hs hk⟩
  | head handler word index tokens =>
      by_cases hk : t.kind = .openDelim
      · cases hfront : handler tokens with
        | ok front => exact ⟨_, _, .opening hs hk hfront⟩
        | error e => simp [Dialect.step, Step.head, hs, hk, hfront] at h
      · exact ⟨_, _, .head hs hk⟩

lemma step_index (h : (d.step s t).next = .ok s') : s'.index = s.index + 1 := by
  have hmove := Move.of_step h
  generalize (d.step s t).statements = out at hmove
  cases hmove <;> rfl

/-! ### Calls and dispatches

The first event of a step may be the call of a handler, or the note that a statement starts.  All
others are quiet. -/

/-- Neither the call of a handler nor the note that a statement starts. -/
def Event.IsQuiet : Event → Prop
  | call _ _ => False
  | note (.dispatch _ _) => False
  | _ => True

/-- The token at this state is dispatched: a statement may start here, and the token does not close
a block. -/
def Compile.State.Dispatches (s : State) (t : Token) : Prop :=
  s.place = .statement ∧ (t.kind = .closeDelim → s.blocks = [])

lemma start_quiet (d : Dialect) (s : State) (t : Token) :
    ∀ e ∈ (d.start s t).events, e.IsQuiet := by
  unfold Dialect.start
  split
  · unfold Modes.setType
    split_ifs <;> simp [Event.IsQuiet]
  · simp [Event.IsQuiet]
  · unfold Step.assign
    split
    · unfold Modes.startExpression Modes.setOperator
      split_ifs <;> simp [Event.IsQuiet]
    · simp [Step.refuse]
  · unfold Dialect.keyword
    split
    · simp
    · split_ifs <;> simp [Step.refuse, Event.IsQuiet]
  · simp [Step.refuse]
  · simp [Step.refuse]

/-- Where a token is dispatched, the step is the start of a statement behind the note. -/
lemma step_dispatching (h : s.Dispatches t) :
    d.step s t =
      { d.start s t with events := .note (.dispatch s.index t) :: (d.start s t).events } := by
  obtain ⟨hs, ht⟩ := h
  simp only [Dialect.step, hs, Dialect.statement]
  split
  · next hk hblocks => simp [ht hk] at hblocks
  · rfl

lemma step_expression_quiet {begun : Bool} (hs : s.place = .expression begun) :
    ∀ e ∈ (d.step s t).events, e.IsQuiet := by
  simp only [Dialect.step, hs, Step.expression]
  split
  · simp
  · simp [Event.IsQuiet]
  · simp [Event.IsQuiet]
  · unfold Modes.setOperator
    split_ifs <;> simp [Event.IsQuiet]
  · simp

/-- In a head, the opening delimiter calls the handler. -/
lemma step_head_events {handler : Handler} {word : Token} {index : Nat} {tokens : List Token}
    (hs : s.place = .head handler word index tokens) :
    ∃ rest, (∀ e ∈ rest, e.IsQuiet) ∧ (d.step s t).events
      = (if t.kind = .openDelim then [.call word.literal tokens] else []) ++ rest := by
  simp only [Dialect.step, hs, Step.head]
  split_ifs
  · split
    · exact ⟨[], by simp, rfl⟩
    · next front _ => exact ⟨(Step.openBody front).map .emit, by simp [Event.IsQuiet], rfl⟩
  · exact ⟨[], by simp, rfl⟩

end Moves

/-! ## From the grammar to the machine

An expression and a head are runs of tokens at one place.  A program starts and ends at a
statement, with the same blocks open. -/

lemma reads_expression {d : Dialect} {value : List Token} {s : State} {begun : Bool}
    (hs : s.place = .expression begun) (hv : ∀ t ∈ value, t.kind ≠ .terminator) :
    ∃ s', Reads d s value (expressionCode s.modes value) s' ∧
      (∃ begun', s'.place = .expression begun') ∧
      s'.modes = expressionModes s.modes value ∧ s'.blocks = s.blocks := by
  induction value generalizing s begun with
  | nil => exact ⟨s, .nil, ⟨begun, hs⟩, rfl, rfl⟩
  | cons t value ih =>
      have hfirst := (Move.operand (d := d) hs (hv t (by simp))).reads
      obtain ⟨s', hrest, hplace, hmodes, hblocks⟩ :=
        ih (s := { s.read t with
            modes := expressionModes s.modes [t], place := .expression true })
          rfl (fun u hu => hv u (by simp [hu]))
      have hcode : expressionCode s.modes (t :: value)
          = expressionCode s.modes [t]
            ++ expressionCode (expressionModes s.modes [t]) value := by
        cases hk : t.kind <;> simp [expressionCode, expressionModes, hk]
      have hafter : expressionModes s.modes (t :: value)
          = expressionModes (expressionModes s.modes [t]) value := by
        by_cases hk : t.kind = .binaryOperator <;> simp [expressionModes, hk]
      refine ⟨s', ?_, hplace, by rw [hafter]; exact hmodes, hblocks⟩
      rw [hcode]
      exact hfirst.cons hrest

lemma reads_head {d : Dialect} {handler : Handler} {word : Token} {index : Nat}
    {more : List Token} {s : State} {head : List Token}
    (hs : s.place = .head handler word index head) (hm : ∀ t ∈ more, t.kind ≠ .openDelim) :
    ∃ s', Reads d s more [] s' ∧ s'.place = .head handler word index (head ++ more) ∧
      s'.modes = s.modes ∧ s'.blocks = s.blocks := by
  induction more generalizing s head with
  | nil => exact ⟨s, .nil, by simpa using hs, rfl, rfl⟩
  | cons t more ih =>
      have hfirst := (Move.head (d := d) hs (hm t (by simp))).reads
      obtain ⟨s', hrest, hplace, hmodes, hblocks⟩ :=
        ih (s := { s.read t with place := .head handler word index (head ++ [t]) })
          rfl (fun u hu => hm u (by simp [hu]))
      exact ⟨s', hfirst.cons hrest, by simpa using hplace, hmodes, hblocks⟩

/-- **A program takes the compiler from a statement to a statement**, and what is emitted is its
code. -/
theorem Derives.reads {d : Dialect} {ts : List Token} {p : Program} (h : Derives d ts p)
    {s : State} (hs : s.place = .statement) :
    ∃ s', Reads d s ts (p.code s.modes) s' ∧ s'.place = .statement ∧
      s'.modes = p.modes s.modes ∧ s'.blocks = s.blocks := by
  induction h generalizing s with
  | done => exact ⟨s, .nil, hs, rfl, rfl⟩
  | @type word ts rest hk _ ih =>
      obtain ⟨s', hrest, hplace, hmodes, hblocks⟩ := ih
        (s := { s.read word with modes := { s.modes with type := word.literal } }) hs
      exact ⟨s', (Move.type hs hk).reads.cons hrest, hplace, hmodes, hblocks⟩
  | @declare name ts rest hk _ ih =>
      obtain ⟨s', hrest, hplace, hmodes, hblocks⟩ := ih (s := s.read name) hs
      exact ⟨s', (Move.declare hs hk).reads.cons hrest, hplace, hmodes, hblocks⟩
  | @assign name equals terminator value ts rest hk he hv ht _ ih =>
      have hname := (Move.declare (d := d) hs hk).reads
      have hequals := (Move.equals (d := d) (s := s.read name) hs he rfl hk).reads
      obtain ⟨s₁, hvalue, ⟨_, hplace₁⟩, hmodes₁, hblocks₁⟩ := reads_expression (d := d)
        (s := { (s.read name).read equals with
          modes := s.modes.restart, place := .expression false }) rfl hv
      have hterminator := (Move.terminator (d := d) hplace₁ ht).reads
      obtain ⟨s', hrest, hplace, hmodes, hblocks⟩ :=
        ih (s := { s₁.read terminator with place := .statement }) rfl
      have hmodes' : ({ s₁.read terminator with place := .statement } : State).modes
          = expressionModes s.modes.restart value := hmodes₁
      rw [hmodes'] at hrest hmodes
      exact ⟨s', hname.cons (hequals.cons (hvalue.append (hterminator.cons hrest))), hplace,
        hmodes, hblocks.trans hblocks₁⟩
  | @ignored word ts rest hk hnone hstrict _ ih =>
      obtain ⟨s', hrest, hplace, hmodes, hblocks⟩ := ih (s := s.read word) hs
      exact ⟨s', (Move.ignored hs hk hnone hstrict).reads.cons hrest, hplace, hmodes, hblocks⟩
  | @block word opening closing head inner ts handler front body rest hk hsome hhead hfront ho
      _ hc _ ihbody ihrest =>
      have hword := (Move.keyword (d := d) hs hk hsome).reads
      obtain ⟨s₁, hheads, hplace₁, hmodes₁, hblocks₁⟩ := reads_head (d := d)
        (s := { s.read word with place := .head handler word s.index [] }) rfl hhead
      have hopening := (Move.opening (d := d) hplace₁ ho hfront).reads
      obtain ⟨s₂, hbody, hplace₂, hmodes₂, hblocks₂⟩ := ihbody
        (s := { s₁.read opening with
          place := .statement, blocks := word.literal :: s₁.blocks }) rfl
      have hinner : ({ s₁.read opening with
          place := .statement, blocks := word.literal :: s₁.blocks } : State).modes = s.modes :=
        hmodes₁
      rw [hinner] at hbody hmodes₂
      have hclosing := (Move.closing (d := d) hplace₂ hc hblocks₂).reads
      obtain ⟨s', hrest, hplace, hmodes, hblocks⟩ :=
        ihrest (s := { s₂.read closing with blocks := s₁.blocks }) hplace₂
      have houter : ({ s₂.read closing with blocks := s₁.blocks } : State).modes
          = body.modes s.modes := hmodes₂
      rw [houter] at hrest hmodes
      exact ⟨s', hword.cons (hheads.append (hopening.cons (hbody.append (hclosing.cons hrest)))),
        hplace, hmodes, hblocks.trans hblocks₁⟩

/-! ## From the machine to the grammar

What a state still has to see is a program for the innermost open block, its closing delimiter, a
program for the block around it, and so on outwards. -/

/-- The tokens complete the open blocks, innermost first. -/
def Closes (d : Dialect) : List Text → List Token → Prop
  | [], ts => ∃ p, Derives d ts p
  | _ :: outer, ts => ∃ inner closing rest p, ts = inner ++ closing :: rest ∧
      closing.kind = .closeDelim ∧ Derives d inner p ∧ Closes d outer rest

/-- The tokens finish a run that ends at the first token of a kind, and complete the blocks. -/
def Finishes (d : Dialect) (kind : Kind) (accepts : List Token → Prop) (blocks : List Text)
    (ts : List Token) : Prop :=
  ∃ run stop rest, ts = run ++ stop :: rest ∧ (∀ t ∈ run, t.kind ≠ kind) ∧ stop.kind = kind ∧
    accepts run ∧ Closes d blocks rest

/-- **What a state still has to see** for the compilation to succeed.  Right behind a name that can
also be an equals sign and an expression. -/
def Demands (d : Dialect) (s : State) (ts : List Token) : Prop :=
  match s.place with
  | .statement =>
      Closes d s.blocks ts ∨
      (∃ name, s.previous = some name ∧ name.kind = .identifier) ∧
        ∃ equals rest, ts = equals :: rest ∧ equals.kind = .equals ∧
          Finishes d .terminator (fun _ => True) s.blocks rest
  | .expression _ => Finishes d .terminator (fun _ => True) s.blocks ts
  | .head handler word _ tokens =>
      Finishes d .openDelim (fun run => ∃ front, handler (tokens ++ run) = .ok front)
        (word.literal :: s.blocks) ts

/-- An item in front of what completes the blocks. -/
lemma Closes.item {d : Dialect} {blocks : List Text} {ts : List Token} (h : Closes d blocks ts)
    (item : List Token) (hitem : ∀ us p, Derives d us p → ∃ q, Derives d (item ++ us) q) :
    Closes d blocks (item ++ ts) := by
  cases blocks with
  | nil =>
      obtain ⟨p, hp⟩ := h
      exact hitem ts p hp
  | cons word outer =>
      obtain ⟨inner, closing, rest, p, rfl, hclosing, hp, houter⟩ := h
      obtain ⟨q, hq⟩ := hitem inner p hp
      exact ⟨item ++ inner, closing, rest, q, by simp, hclosing, hq, houter⟩

/-- A token that belongs to the run. -/
lemma Finishes.cons {d : Dialect} {kind : Kind} {accepts accepts' : List Token → Prop}
    {blocks : List Text} {t : Token} {ts : List Token} (ht : t.kind ≠ kind)
    (hacc : ∀ run, accepts run → accepts' (t :: run)) (h : Finishes d kind accepts blocks ts) :
    Finishes d kind accepts' blocks (t :: ts) := by
  obtain ⟨run, stop, rest, rfl, hrun, hstop, haccepts, hcloses⟩ := h
  refine ⟨t :: run, stop, rest, rfl, ?_, hstop, hacc run haccepts, hcloses⟩
  intro u hu
  rcases List.mem_cons.mp hu with rfl | hu
  · exact ht
  · exact hrun u hu

/-- At a statement that does not follow a name, only what completes the blocks will do. -/
lemma Demands.closes {d : Dialect} {s : State} {t : Token} {ts : List Token}
    (h : Demands d s ts) (hs : s.place = .statement) (hprev : s.previous = some t)
    (ht : t.kind ≠ .identifier) : Closes d s.blocks ts := by
  simp only [Demands, hs] at h
  rcases h with h | ⟨⟨name, hname, hk⟩, _⟩
  · exact h
  · rw [hprev, Option.some.injEq] at hname
    exact absurd (hname ▸ hk) ht

/-- **A move passes the demand back.** -/
theorem Demands.of_move {d : Dialect} {s s' : State} {t : Token} {ts : List Token}
    {out : List Statement} (hmove : Move d s t out s') (h : Demands d s' ts) :
    Demands d s (t :: ts) := by
  cases hmove with
  | type hs ht =>
      have hc : Closes d s.blocks ts := h.closes hs rfl (by simp [ht])
      simp only [Demands, hs]
      exact .inl (hc.item [t] fun us p hp => ⟨_, .type ht hp⟩)
  | declare hs ht =>
      simp only [Demands, hs, State.read] at h ⊢
      rcases h with hc | ⟨_, equals, rest, rfl, he, run, stop, rest', rfl, hrun, hstop, _, hc⟩
      · exact .inl (hc.item [t] fun us p hp => ⟨_, .declare ht hp⟩)
      · -- the name turns out to be the target of an assignment
        have := hc.item (t :: equals :: (run ++ [stop])) fun us p hp =>
          ⟨_, by simpa using Derives.assign ht he hrun hstop hp⟩
        exact .inl (by simpa using this)
  | @equals name hs ht hprev hname =>
      simp only [Demands] at h
      simp only [Demands, hs]
      exact .inr ⟨⟨name, hprev, hname⟩, t, ts, rfl, ht, h⟩
  | ignored hs ht hnone hstrict =>
      have hc : Closes d s.blocks ts := h.closes hs rfl (by simp [ht])
      simp only [Demands, hs]
      exact .inl (hc.item [t] fun us p hp => ⟨_, .ignored ht hnone hstrict hp⟩)
  | @keyword handler hs ht hsome =>
      simp only [Demands] at h
      obtain ⟨run, stop, rest, rfl, hrun, hstop, ⟨front, hfront⟩, inner, closing, rest', p, rfl,
        hclosing, hp, hc⟩ := h
      simp only [Demands, hs]
      have := hc.item (t :: (run ++ stop :: (inner ++ [closing]))) fun us q hq =>
        ⟨_, by simpa using Derives.block ht hsome hrun hfront hstop hp hclosing hq⟩
      exact .inl (by simpa [State.read] using this)
  | @closing word outer hs ht hblocks =>
      have hc : Closes d outer ts := h.closes hs rfl (by simp [ht])
      simp only [Demands, hs, hblocks]
      exact .inl ⟨[], t, ts, .done, rfl, ht, .done, hc⟩
  | operand hs ht =>
      simp only [Demands] at h
      simp only [Demands, hs]
      exact h.cons ht fun _ _ => trivial
  | terminator hs ht =>
      have hc : Closes d s.blocks ts := h.closes rfl rfl (by simp [ht])
      simp only [Demands, hs]
      exact ⟨[], t, ts, rfl, by simp, ht, trivial, hc⟩
  | head hs ht =>
      simp only [Demands] at h
      simp only [Demands, hs]
      exact h.cons ht fun run hrun => by simpa using hrun
  | @opening handler word index tokens front hs ht hfront =>
      have hc : Closes d (word.literal :: s.blocks) ts := h.closes rfl rfl (by simp [ht])
      simp only [Demands, hs]
      exact ⟨[], t, ts, rfl, by simp, ht, ⟨front, by simpa using hfront⟩, hc⟩

/-- A compilation can only end where nothing more is demanded. -/
lemma Demands.of_finish {d : Dialect} {s : State} (h : s.finish = none) : Demands d s [] := by
  unfold State.finish at h
  split at h
  · next hplace hblocks =>
      simp only [Demands, hplace, hblocks]
      exact .inl ⟨.done, .done⟩
  all_goals simp at h

/-- A run that ends well has met the demand of the state that it started in. -/
theorem Demands.of_reads {d : Dialect} {s s' : State} {ts : List Token} {out : List Statement}
    (h : Reads d s ts out s') (hfin : s'.finish = none) : Demands d s ts := by
  induction ts generalizing s out with
  | nil =>
      have hs : s = s' := by simpa [Dialect.read] using h.next
      exact hs ▸ .of_finish hfin
  | cons t ts ih =>
      obtain ⟨s₁, hstep, hrest, _⟩ := h.first
      exact .of_move (.of_step hstep) (ih hrest)

/-! ## Both directions -/

lemma Compilation.prepend_listing (c : Compilation) (events : List Event) :
    (c.prepend events).listing
      = c.listing.map (events.filterMap Event.statement? ++ ·) := by
  obtain ⟨own, failure⟩ := c
  cases failure <;> simp [listing, prepend, emitted, Except.map]

lemma Compile.Step.compilation_listing (step : Step) :
    step.compilation.listing =
      match step.next with
      | .ok s => match s.finish with
        | none => .ok step.statements
        | some e => .error e
      | .error e => .error e := by
  obtain ⟨events, next⟩ := step
  cases next with
  | error e => rfl
  | ok s => cases hfin : s.finish <;> simp [compilation, hfin, Compilation.listing,
      Compilation.emitted, Compilation.fail, statements]

lemma Modes.opening_statements : Modes.opening.filterMap Event.statement? = seedMarkers := rfl

/-- A compilation succeeds if its tokens take the compiler to a state in which they may end. -/
lemma listing_eq_ok_iff_reads {d : Dialect} {ts : List Token} {listing : List Statement} :
    (d.compile ts).listing = .ok listing ↔
      ∃ out s', Reads d .initial ts out s' ∧ s'.finish = none ∧ listing = seedMarkers ++ out := by
  rw [Dialect.compile, Dialect.compileFrom_eq_read, Compilation.prepend_listing,
    Step.compilation_listing, Modes.opening_statements]
  constructor
  · intro h
    split at h
    · next s' hnext =>
        split at h
        · next hfin =>
            refine ⟨_, s', ⟨hnext, rfl⟩, hfin, ?_⟩
            simpa [Except.map] using h.symm
        · simp [Except.map] at h
    · simp [Except.map] at h
  · rintro ⟨out, s', hreads, hfin, rfl⟩
    simp [hreads.next, hfin, hreads.statements, Except.map]

/-- What compiles is a program, and the listing is its code behind the three markers. -/
lemma listing_eq_ok_iff {d : Dialect} {ts : List Token} {listing : List Statement} :
    (d.compile ts).listing = .ok listing ↔
      ∃ p, Derives d ts p ∧ listing = seedMarkers ++ p.code ⟨"int", "+"⟩ := by
  rw [listing_eq_ok_iff_reads]
  constructor
  · rintro ⟨out, s', hreads, hfin, rfl⟩
    -- nothing precedes the first token, so the initial state demands a program
    have hdemand : ∃ p, Derives d ts p := by
      rcases Demands.of_reads hreads hfin with h | ⟨⟨name, hname, _⟩, _⟩
      · exact h
      · simp [State.initial] at hname
    obtain ⟨p, hp⟩ := hdemand
    refine ⟨p, hp, ?_⟩
    obtain ⟨s'', hcode, _⟩ := hp.reads (s := .initial) rfl
    rw [← hreads.statements, hcode.statements]
    rfl
  · rintro ⟨p, hp, rfl⟩
    obtain ⟨s', hreads, hplace, _, hblocks⟩ := hp.reads (s := .initial) rfl
    refine ⟨_, s', hreads, ?_, rfl⟩
    have hnone : s'.blocks = [] := hblocks
    simp [State.finish, hplace, hnone]

/-- **The compiler accepts exactly its grammar, and emits the code of the one parse.**  A list of
tokens is at most one program; it compiles if and only if it is one; and the listing is then the
code of that program, from the default modes on, behind the three markers. -/
theorem compile_listing_iff (d : Dialect) (ts : List Token) :
    (∀ p q, Derives d ts p → Derives d ts q → p = q) ∧
    ∀ listing, (d.compile ts).listing = .ok listing ↔
      ∃ p, Derives d ts p ∧ listing = seedMarkers ++ p.code ⟨"int", "+"⟩ :=
  ⟨fun _ _ hp hq => hp.unique hq, fun _ => listing_eq_ok_iff⟩

end Scriptlet
