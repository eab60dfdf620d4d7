import Mathlib
import Scriptlet.Command.Run
import Scriptlet.Files.Session
import Scriptlet.Proofs.HandlerCalls
import Scriptlet.Proofs.Integers
import Scriptlet.Proofs.Listings
import Scriptlet.Proofs.ModeMarkers

/-!
# The log of a compilation

A compiler that logs does so while it works: next to each mode that it sets and each statement that
it emits stands a line that may write to the log, or not, as the level wants.  Nothing in such a
program keeps the log and the code together, or the code apart from the level.

**Logging on the way.**  `Dialect.traceFrom` is that compiler: it performs the events of a step as
they come, and looks at the level at each note.  It emits the same statements, makes the same calls
and fails with the same error at every level, and what it logs is the log of the compilation
(`trace_eq`).

**Messages.**  The log of a compilation are the lines of its messages (`log_eq_messages`), and the
log of a source is that of the compilation of its tokens (`log_eq_compile`).  The level is the
integer that a setting spells (`asksFor_iff`).

**Markers and notes.**  `Noted` says of events that each marker has its note right in front of it,
with the mode that it replaces, and that there are no such notes elsewhere.  A step has events of
that kind (`step_noted`), so a whole run has them, whether it fails or not (`compileFrom_noted`).
Hence their messages can be computed from the statements alone (`Noted.switches`).

* **`log_matches_listing`** — the log of every compilation, at every level.
-/

namespace Scriptlet

open Compile

/-! ## Messages -/

/-- The lines that a message fills in the log. -/
def Text.logLines (message : Text) : List Text :=
  message.endLine.splitLines.dropLast

/-- A message without a newline is a line of its own. -/
lemma Text.logLines_of_single {message : Text} (h : newline ∉ message.bytes) :
    message.logLines = [message] := by
  have hlast : message.bytes.getLast? ≠ some newline := fun hlast => h (List.mem_of_getLast? hlast)
  rw [logLines, endLine, if_neg hlast, splitLines, splitOn, cut_append h]
  rfl

def Text.startsWith (t start : Text) : Bool :=
  start.bytes.isPrefixOf t.bytes

/-- A message that tells of a type or an operator that replaces another. -/
def isSwitchMessage (message : Text) : Bool :=
  message.startsWith "type " || message.startsWith "operator "

def isDispatchMessage (message : Text) : Bool :=
  message.startsWith "dispatch "

namespace Note

def isSwitch : Note → Bool
  | typeSwitch _ _ | operatorSwitch _ _ => true
  | _ => false

def isDispatch : Note → Bool
  | dispatch _ _ => true
  | _ => false

-- the first words of the messages tell the notes apart
lemma isSwitchMessage_message (n : Note) : isSwitchMessage n.message = n.isSwitch := by
  cases n <;> rfl

lemma isDispatchMessage_message (n : Note) : isDispatchMessage n.message = n.isDispatch := by
  cases n <;> rfl

lemma level_le_one (n : Note) : decide (n.level ≤ 1) = !n.isDispatch := by
  cases n <;> rfl

lemma level_le_two (n : Note) : n.level ≤ 2 := by
  cases n <;> simp [level]

end Note

namespace Compilation

/-- The messages that are logged at a level. -/
def messages (c : Compilation) (level : Int) : List Text :=
  (c.notes.filter (·.level ≤ level)).map Note.message

lemma log_eq_messages (c : Compilation) (level : Int) :
    c.log level = (c.messages level).flatMap Text.logLines := by
  rw [messages, List.flatMap_map]
  rfl

lemma log_of_single {c : Compilation} {level : Int}
    (h : ∀ message ∈ c.messages level, Text.newline ∉ message.bytes) :
    c.log level = c.messages level := by
  have hsingle : ∀ message ∈ c.messages level, message.logLines = [message] := fun message hm =>
    Text.logLines_of_single (h message hm)
  rw [log_eq_messages, List.flatMap_congr hsingle, List.flatMap_singleton']

/-- The listing is what was emitted, if there is one. -/
lemma eq_emitted {c : Compilation} {code : List Statement} (h : c.listing = .ok code) :
    code = c.emitted := by
  unfold listing at h
  split at h
  · exact (Except.ok.inj h).symm
  · cases h

lemma messages_one (c : Compilation) :
    c.messages 1 = (c.notes.filter fun n => !n.isDispatch).map Note.message := by
  rw [messages]
  simp only [Note.level_le_one]

lemma messages_all (c : Compilation) {level : Int} (h : 2 ≤ level) :
    c.messages level = c.notes.map Note.message := by
  have hall : ∀ n ∈ c.notes, decide (n.level ≤ level) = true := by
    intro n _
    have hn := n.level_le_two
    simp only [decide_eq_true_eq]
    omega
  rw [messages, List.filter_eq_self.mpr hall]

/-- At level 1 the messages of changes are those of all such notes. -/
lemma messages_switches (c : Compilation) :
    (c.messages 1).filter isSwitchMessage = (c.notes.filter Note.isSwitch).map Note.message := by
  have hboth : ∀ n : Note, (n.isSwitch && !n.isDispatch) = n.isSwitch := by
    intro n
    cases n <;> rfl
  rw [messages_one, List.filter_map, List.filter_filter]
  simp only [Function.comp_apply, Note.isSwitchMessage_message, hboth]

/-- From level 2 on there are more messages, but only about tokens dispatched. -/
lemma messages_others (c : Compilation) {level : Int} (h : 2 ≤ level) :
    (c.messages level).filter (fun message => !isDispatchMessage message) = c.messages 1 := by
  rw [messages_all c h, messages_one, List.filter_map]
  refine congrArg (List.map _) (List.filter_congr fun n _ => ?_)
  rw [Function.comp_apply, Note.isDispatchMessage_message]

/-- The notes that a token is dispatched are the tokens dispatched. -/
lemma notes_dispatches (c : Compilation) :
    c.notes.filter Note.isDispatch = c.dispatches.map fun site => .dispatch site.1 site.2 := by
  unfold notes dispatches
  induction c.events with
  | nil => rfl
  | cons e events ih =>
      cases e with
      | note n =>
          cases n <;> simp [List.filterMap_cons, List.filter_cons, Event.note?, Event.dispatch?,
            Note.isDispatch, ih]
      | _ => simpa [List.filterMap_cons, Event.note?, Event.dispatch?] using ih

lemma messages_dispatches (c : Compilation) {level : Int} (h : 2 ≤ level) :
    (c.messages level).filter isDispatchMessage
      = c.dispatches.map fun site =>
          .concat ["dispatch ", .ofNat site.1, ": ", site.2.render] := by
  have hnotes : c.notes.filter (isDispatchMessage ∘ Note.message)
      = c.notes.filter Note.isDispatch := List.filter_congr fun n _ => n.isDispatchMessage_message
  rw [messages_all c h, List.filter_map, hnotes, notes_dispatches, List.map_map]
  rfl

end Compilation

/-! ## Logging on the way -/

/-- What a compilation that logs on the way has done so far. -/
structure Progress where
  emitted : List Statement := []
  calls : List (Text × List Token) := []
  logged : List Text := []

/-- Performs an event; a note is logged if the level wants it. -/
def Progress.perform (level : Int) (p : Progress) : Event → Progress
  | .emit s => { p with emitted := p.emitted ++ [s] }
  | .call word head => { p with calls := p.calls ++ [(word, head)] }
  | .note n => if n.level ≤ level then { p with logged := p.logged ++ n.message.logLines } else p

/-- Compiles and logs at the same time. -/
def Dialect.traceFrom (d : Dialect) (level : Int) (s : State) (p : Progress) :
    List Token → Progress × Option SyntaxError
  | [] =>
    match s.finish with
    | none => (p, none)
    | some e => (p.perform level (.note (.failed e)), some e)
  | t :: rest =>
    let p := (d.step s t).events.foldl (Progress.perform level) p
    match (d.step s t).next with
    | .ok next => d.traceFrom level next p rest
    | .error e => (p.perform level (.note (.failed e)), some e)

def Dialect.trace (d : Dialect) (level : Int) (ts : List Token) : Progress × Option SyntaxError :=
  d.traceFrom level .initial (Modes.opening.foldl (Progress.perform level) {}) ts

lemma Progress.foldl_perform (level : Int) (p : Progress) (events : List Event) :
    events.foldl (Progress.perform level) p
      = ⟨p.emitted ++ events.filterMap Event.statement?, p.calls ++ events.filterMap Event.call?,
          p.logged ++ ((events.filterMap Event.note?).filter (·.level ≤ level)).flatMap
            fun n => n.message.logLines⟩ := by
  induction events generalizing p with
  | nil => simp
  | cons e events ih =>
      rw [List.foldl_cons, ih]
      cases e with
      | emit s =>
          simp [Progress.perform, List.filterMap_cons, Event.statement?, Event.call?, Event.note?]
      | call word head =>
          simp [Progress.perform, List.filterMap_cons, Event.statement?, Event.call?, Event.note?]
      | note n =>
          by_cases h : n.level ≤ level <;>
            simp [Progress.perform, List.filterMap_cons, Event.statement?, Event.call?,
              Event.note?, h]

/-- From any state, the compiler that logs on the way performs the events of the compilation. -/
lemma Dialect.traceFrom_eq (d : Dialect) (level : Int) (s : State) (p : Progress)
    (ts : List Token) :
    d.traceFrom level s p ts
      = ((d.compileFrom s ts).events.foldl (Progress.perform level) p,
          (d.compileFrom s ts).failure) := by
  induction ts generalizing s p with
  | nil =>
      rw [Dialect.traceFrom, Dialect.compileFrom]
      cases s.finish <;> rfl
  | cons t ts ih =>
      rw [Dialect.traceFrom, Dialect.compileFrom]
      cases hstep : d.step s t with
      | mk events next =>
          cases next with
          | ok next => simp only [ih, Compilation.prepend, List.foldl_append]
          | error e =>
              simp only [Compilation.fail, List.foldl_append, List.foldl_cons, List.foldl_nil]

/-- **Logging on the way** emits, calls, logs and fails as the compilation says, at every level. -/
theorem Dialect.trace_eq (d : Dialect) (level : Int) (ts : List Token) :
    d.trace level ts
      = (⟨(d.compile ts).emitted, (d.compile ts).calls, (d.compile ts).log level⟩,
          (d.compile ts).failure) := by
  rw [Dialect.trace, d.traceFrom_eq, ← List.foldl_append, Progress.foldl_perform]
  rfl

/-- A source that is scanned logs what its tokens log. -/
lemma Dialect.log_eq_compile (d : Dialect) (level : Int) {source : Text} {ts : List Token}
    (h : scan source = .ok ts) : d.log level source = (d.compile ts).log level := by
  simp only [Dialect.log, Dialect.compileSource, h]

/-! ## The level -/

/-- **The level that a setting asks for**: the integer that it spells, if that has 64 bits, and 0
otherwise, or if there is no setting. -/
inductive AsksFor : Option Text → Int → Prop where
  | nothing : AsksFor none 0
  | number {setting : Text} {n : Int} : Numeral.Spells setting n → -2 ^ 63 ≤ n → n ≤ 2 ^ 63 - 1 →
      AsksFor (some setting) n
  | other {setting : Text} : (¬ ∃ n, Numeral.Spells setting n ∧ -2 ^ 63 ≤ n ∧ n ≤ 2 ^ 63 - 1) →
      AsksFor (some setting) 0

/-- How much a session wants to know of a compilation. -/
def Session.logLevel (s : Session) : Int :=
  (s.logSetting.map Scriptlet.logLevel).getD 0

/-- A setting that spells an integer of 64 bits is read as that. -/
lemma logLevel_of_spells {setting : Text} {n : Int} (h : Numeral.Spells setting n)
    (hmin : -2 ^ 63 ≤ n) (hmax : n ≤ 2 ^ 63 - 1) : logLevel setting = n := by
  obtain ⟨k, hk, hread⟩ := Numeral.exists_readInt64?_of_spells h hmin hmax
  simp only [logLevel, hread, hk]

lemma logLevel_of_not_spells {setting : Text}
    (h : ¬ ∃ n, Numeral.Spells setting n ∧ -2 ^ 63 ≤ n ∧ n ≤ 2 ^ 63 - 1) :
    logLevel setting = 0 := by
  rw [← Numeral.exists_readInt64?_iff, not_exists] at h
  simp only [logLevel, Option.eq_none_iff_forall_ne_some.mpr h]

/-- **A session wants to know what its setting asks for.** -/
lemma asksFor_iff (s : Session) (level : Int) :
    AsksFor s.logSetting level ↔ s.logLevel = level := by
  unfold Session.logLevel
  generalize s.logSetting = setting
  constructor
  · intro h
    cases h with
    | nothing => rfl
    | number hspells hmin hmax => exact logLevel_of_spells hspells hmin hmax
    | other hnone => exact logLevel_of_not_spells hnone
  · rintro rfl
    cases setting with
    | none => exact .nothing
    | some setting =>
        show AsksFor (some setting) (logLevel setting)
        by_cases h : ∃ n, Numeral.Spells setting n ∧ -2 ^ 63 ≤ n ∧ n ≤ 2 ^ 63 - 1
        · obtain ⟨n, hspells, hmin, hmax⟩ := h
          rw [logLevel_of_spells hspells hmin hmax]
          exact .number hspells hmin hmax
        · rw [logLevel_of_not_spells h]
          exact .other h

/-- A session that compiles gets the listing whatever it wants to know, and logs that. -/
lemma Session.run_compileLogged (s : Session) (d : Dialect) (source : Text) :
    (Command.compileLogged d source : StateM Session _).run s
      = (d.listing source, { s with logged := s.logged ++ d.log s.logLevel source }) := rfl

/-! ## Markers and notes -/

/-- The event neither sets a mode nor tells of one. -/
def Event.IsModeless : Event → Prop
  | .emit s => ∀ m : Modes, m.after s = m
  | .call _ _ => True
  | .note n => n.isSwitch = false

/-- Events that lead from modes to modes.  Each marker has a note right in front of it, of the mode in
force and the one that it names. -/
inductive Noted : Modes → List Event → Modes → Prop where
  | nil {m : Modes} : Noted m [] m
  | type {m m' : Modes} {name : Text} {events : List Event} :
      Noted { m with type := name } events m' →
      Noted m (.note (.typeSwitch m.type name) :: .emit (.type name) :: events) m'
  | operator {m m' : Modes} {op : Text} {events : List Event} :
      Noted { m with operator := op } events m' →
      Noted m (.note (.operatorSwitch m.operator op) :: .emit (.operator op) :: events) m'
  | other {m m' : Modes} {e : Event} {events : List Event} :
      e.IsModeless → Noted m events m' → Noted m (e :: events) m'

namespace Noted

variable {m m' m'' : Modes} {events more : List Event}

lemma append (h : Noted m events m') (h' : Noted m' more m'') : Noted m (events ++ more) m'' := by
  induction h with
  | nil => exact h'
  | type _ ih => exact .type (ih h')
  | operator _ ih => exact .operator (ih h')
  | other he _ ih => exact .other he (ih h')

lemma of_modeless (m : Modes) (h : ∀ e ∈ events, e.IsModeless) : Noted m events m := by
  induction events with
  | nil => exact .nil
  | cons e events ih => exact .other (h e (by simp)) (ih fun e' he' => h e' (by simp [he']))

lemma setType (m : Modes) (name : Text) : Noted m (m.setType name).2 (m.setType name).1 := by
  unfold Modes.setType
  split_ifs
  · exact .nil
  · exact .type .nil

lemma setOperator (m : Modes) (op : Text) : Noted m (m.setOperator op).2 (m.setOperator op).1 := by
  unfold Modes.setOperator
  split_ifs
  · exact .nil
  · exact .operator .nil

lemma startExpression (m : Modes) : Noted m m.startExpression.2 m.startExpression.1 := by
  unfold Modes.startExpression
  split_ifs
  · exact .nil
  · exact setOperator m _

end Noted

section Runs

variable {d : Dialect} {s next : State} {t : Token}

lemma start_noted (hd : d.SetsNoMode) (hs : s.place = .statement) :
    ∃ m, Noted s.modes (d.start s t).events m ∧
      ∀ next, (d.start s t).next = .ok next → next.modes = m ∧ next.place.SetsNoMode := by
  have hread : (s.read t).place.SetsNoMode := by
    show s.place.SetsNoMode
    rw [hs]
    trivial
  unfold Dialect.start
  split
  · refine ⟨_, .setType s.modes t.literal, ?_⟩
    rintro next ⟨⟩
    exact ⟨rfl, hread⟩
  · refine ⟨s.modes, .of_modeless _ (by simp [Event.IsModeless, Modes.after]), ?_⟩
    rintro next ⟨⟩
    exact ⟨rfl, hread⟩
  · unfold Step.assign
    split
    · refine ⟨_, .other ?_ (.other ?_ (.startExpression s.modes)), ?_⟩
      · exact fun m => rfl
      · exact fun m => rfl
      · rintro next ⟨⟩
        exact ⟨rfl, trivial⟩
    · exact ⟨_, .nil, by rintro next ⟨⟩⟩
  · unfold Dialect.keyword
    split
    · next handler hhandler =>
        refine ⟨_, .nil, ?_⟩
        rintro next ⟨⟩
        exact ⟨rfl, hd _ _ hhandler⟩
    · split_ifs
      · exact ⟨_, .nil, by rintro next ⟨⟩⟩
      · refine ⟨_, .other rfl .nil, ?_⟩
        rintro next ⟨⟩
        exact ⟨rfl, hread⟩
  · exact ⟨_, .nil, by rintro next ⟨⟩⟩
  · exact ⟨_, .nil, by rintro next ⟨⟩⟩

lemma openBody_setsNoMode {front : List Statement} (h : ∀ u ∈ front, ∀ m : Modes, m.after u = m) :
    ∀ e ∈ (Step.openBody front).map Event.emit, e.IsModeless := by
  intro e he
  obtain ⟨u, hu, rfl⟩ := List.mem_map.mp he
  unfold Step.openBody at hu
  split_ifs at hu with hopens
  · exact h u hu
  · rcases List.mem_append.mp hu with hu | hu
    · exact h u hu
    · rw [List.mem_singleton.mp hu]
      exact fun m => rfl

/-- **Markers and notes, one step.** -/
lemma step_noted (hd : d.SetsNoMode) (hs : s.place.SetsNoMode) :
    ∃ m, Noted s.modes (d.step s t).events m ∧
      ∀ next, (d.step s t).next = .ok next → next.modes = m ∧ next.place.SetsNoMode := by
  cases hplace : s.place with
  | statement =>
      by_cases h : s.Dispatches t
      · obtain ⟨m, hnoted, hnext⟩ := start_noted (t := t) hd hplace
        rw [step_dispatching h]
        exact ⟨m, .other rfl hnoted, hnext⟩
      · obtain ⟨outer, hstep⟩ := step_closing (d := d) hplace h
        rw [hstep]
        refine ⟨s.modes, .other (fun m => rfl) .nil, ?_⟩
        rintro next ⟨⟩
        exact ⟨rfl, hs⟩
  | expression begun =>
      simp only [Dialect.step, hplace, Step.expression]
      split
      case h_4 =>
        refine ⟨_, .setOperator s.modes t.literal, ?_⟩
        rintro next ⟨⟩
        exact ⟨rfl, trivial⟩
      all_goals
        refine ⟨s.modes, .of_modeless _ (by simp [Event.IsModeless, Modes.after]), ?_⟩
        rintro next ⟨⟩
        exact ⟨rfl, trivial⟩
  | head handler word index tokens =>
      have hhandler : Handler.SetsNoMode handler := by
        rw [hplace] at hs
        exact hs
      simp only [Dialect.step, hplace, Step.head]
      split_ifs
      · split
        · exact ⟨_, .other trivial .nil, by rintro next ⟨⟩⟩
        · next front hfront =>
            refine ⟨s.modes, .other trivial (.of_modeless _ ?_), ?_⟩
            · exact openBody_setsNoMode (hhandler _ _ hfront)
            · rintro next ⟨⟩
              exact ⟨rfl, trivial⟩
      · refine ⟨s.modes, .nil, ?_⟩
        rintro next ⟨⟩
        exact ⟨rfl, hhandler⟩

/-- **Markers and notes, a run**, whether it fails or not. -/
theorem compileFrom_noted (hd : d.SetsNoMode) (hs : s.place.SetsNoMode) (ts : List Token) :
    ∃ m, Noted s.modes (d.compileFrom s ts).events m := by
  induction ts generalizing s with
  | nil =>
      rw [Dialect.compileFrom]
      cases s.finish with
      | none => exact ⟨_, .nil⟩
      | some e => exact ⟨_, .other rfl .nil⟩
  | cons t ts ih =>
      obtain ⟨m, hnoted, hnext⟩ := step_noted (t := t) hd hs
      rw [Dialect.compileFrom]
      cases hstep : d.step s t with
      | mk events next =>
          rw [hstep] at hnoted hnext
          cases next with
          | error e => exact ⟨m, hnoted.append (.other rfl .nil)⟩
          | ok next =>
              obtain ⟨hmodes, hplace⟩ := hnext next rfl
              obtain ⟨m', hrest⟩ := ih hplace
              exact ⟨m', hnoted.append (hmodes ▸ hrest)⟩

end Runs

/-! ## The messages that a listing asks for -/

namespace Modes

/-- The message of a statement, if it is a marker: of the mode in force and the one that it
names. -/
def switch? (m : Modes) : Statement → Option Text
  | .type name => some (.concat ["type ", m.type, " -> ", name])
  | .operator op => some (.concat ["operator ", m.operator, " -> ", op])
  | _ => none

/-- The messages of statements, one for each marker.  The mode in force is the one that the last
marker of its kind names. -/
def switches (m : Modes) : List Statement → List Text
  | [] => []
  | s :: rest => (m.switch? s).toList ++ (m.after s).switches rest

lemma switch?_of_keep (m : Modes) {s : Statement} (h : ∀ m : Modes, m.after s = m) :
    m.switch? s = none := by
  cases s with
  | type name =>
      have hint : name = "int" := congrArg Modes.type (h ⟨"int", "+"⟩)
      have hbool : name = "bool" := congrArg Modes.type (h ⟨"bool", "+"⟩)
      exact absurd (hint.symm.trans hbool) (by decide)
  | operator op =>
      have hplus : op = "+" := congrArg Modes.operator (h ⟨"int", "+"⟩)
      have hminus : op = "-" := congrArg Modes.operator (h ⟨"int", "-"⟩)
      exact absurd (hplus.symm.trans hminus) (by decide)
  | _ => rfl

end Modes

/-- **The messages of the changes are those that the statements ask for.** -/
theorem Noted.switches {m m' : Modes} {events : List Event} (h : Noted m events m') :
    ((events.filterMap Event.note?).filter Note.isSwitch).map Note.message
      = m.switches (events.filterMap Event.statement?) := by
  induction h with
  | nil => rfl
  | type _ ih =>
      simp [List.filterMap_cons, List.filter_cons, Event.note?, Event.statement?, Note.isSwitch,
        Note.message, Modes.switches, Modes.switch?, Modes.after, ih]
  | operator _ ih =>
      simp [List.filterMap_cons, List.filter_cons, Event.note?, Event.statement?, Note.isSwitch,
        Note.message, Modes.switches, Modes.switch?, Modes.after, ih]
  | @other m m' e events he _ ih =>
      cases e with
      | call word head => simpa [List.filterMap_cons, Event.note?, Event.statement?] using ih
      | note n =>
          have hn : n.isSwitch = false := he
          simpa [List.filterMap_cons, Event.note?, Event.statement?, hn] using ih
      | emit s =>
          have hkeep : ∀ m : Modes, m.after s = m := he
          simp [List.filterMap_cons, Event.note?, Event.statement?, Modes.switches,
            m.switch?_of_keep hkeep, hkeep m, ih]

/-- **The log matches the listing and does not influence it.**

A compiler that logs on the way, at any level, emits and calls and fails as one that does not, and
so does the command that reads the level from the setting of its host.  What is logged are the lines
of the messages of that level, or just the messages, if no message has several lines.

If the handlers set no mode, the messages of changes at level 1 are one for each marker behind the
first three statements, in order, and name the mode of the last marker of its kind.  From level 2
on there are also messages about tokens dispatched, in the order of their positions, and no
others. -/
theorem log_matches_listing (d : Dialect) (ts : List Token) :
    (∀ level, d.trace level ts
      = (⟨(d.compile ts).emitted, (d.compile ts).calls, (d.compile ts).log level⟩,
          (d.compile ts).failure)) ∧
    (∀ level, (d.compile ts).log level = ((d.compile ts).messages level).flatMap Text.logLines ∧
      ((∀ message ∈ (d.compile ts).messages level, Text.newline ∉ message.bytes) →
        (d.compile ts).log level = (d.compile ts).messages level)) ∧
    (∀ source, scan source = .ok ts → ∀ level, d.log level source = (d.compile ts).log level) ∧
    (∀ (s : Session) (source : Text), (Command.compileLogged d source : StateM Session _).run s
      = (d.listing source, { s with logged := s.logged ++ d.log s.logLevel source })) ∧
    (∀ (s : Session) (level : Int), AsksFor s.logSetting level ↔ s.logLevel = level) ∧
    (d.SetsNoMode → ∃ code, (d.compile ts).emitted = seedMarkers ++ code ∧
      (∀ listing, (d.compile ts).listing = .ok listing → listing = seedMarkers ++ code) ∧
      ((d.compile ts).messages 1).filter isSwitchMessage = Modes.switches ⟨"int", "+"⟩ code) ∧
    ∀ level, 2 ≤ level →
      ((d.compile ts).messages level).filter (fun message => !isDispatchMessage message)
        = (d.compile ts).messages 1 ∧
      ∃ sites : List (Nat × Token), sites.Pairwise (·.1 < ·.1) ∧
        ((d.compile ts).messages level).filter isDispatchMessage
          = sites.map fun site => .concat ["dispatch ", .ofNat site.1, ": ", site.2.render] := by
  refine ⟨fun level => d.trace_eq level ts,
    fun level => ⟨Compilation.log_eq_messages _ level, Compilation.log_of_single⟩,
    fun source hscan level => d.log_eq_compile level hscan,
    fun s source => s.run_compileLogged d source, asksFor_iff, fun hd => ?_,
    fun level hlevel => ?_⟩
  · obtain ⟨m, hnoted⟩ := compileFrom_noted (s := .initial) hd trivial ts
    have hemitted : (d.compile ts).emitted
        = seedMarkers ++ (d.compileFrom .initial ts).emitted := rfl
    have hnotes : (d.compile ts).notes = (d.compileFrom .initial ts).notes := rfl
    refine ⟨_, hemitted, fun listing hlisting => ?_, ?_⟩
    · rw [← hemitted]
      exact Compilation.eq_emitted hlisting
    · rw [Compilation.messages_switches, hnotes]
      exact hnoted.switches
  · exact ⟨Compilation.messages_others _ hlevel, (d.compile ts).dispatches,
      compileFrom_dispatches_sorted.2, Compilation.messages_dispatches _ hlevel⟩

/-- A type and two changes of the operator, in a compilation that fails at its end.  The setting has
a sign and a zero in front. -/
theorem log_matches_listing_unterminated :
    let d : Dialect := .standard
    let source : Text := "float x = *;\nx ="
    let ts : List Token := [⟨.type, "float", 1, 1⟩, ⟨.identifier, "x", 1, 7⟩, ⟨.equals, "=", 1, 9⟩,
      ⟨.binaryOperator, "*", 1, 11⟩, ⟨.terminator, ";", 1, 12⟩, ⟨.identifier, "x", 2, 1⟩,
      ⟨.equals, "=", 2, 3⟩]
    let s : Session := { logSetting := some "+01" }
    let switches : List Text := ["type int -> float", "operator + -> *", "operator * -> +"]
    scan source = .ok ts ∧ d.SetsNoMode ∧ (d.compile ts).failure.isSome ∧ s.logLevel = 1 ∧
    ((Command.compileLogged d source : StateM Session _).run s).2.logged
      = (d.compile ts).messages 1 ∧
    ((d.compile ts).messages 1).filter isSwitchMessage = switches ∧
    ((d.compile ts).messages 3).filter (fun message => !isDispatchMessage message)
      = (d.compile ts).messages 1 := by
  intro d source ts s switches
  obtain ⟨-, hlog, hsource, hrun, hasks, hswitches, hmore⟩ := log_matches_listing d ts
  have hscan : scan source = .ok ts := by decide +kernel
  have hd : d.SetsNoMode := Dialect.standard_setsNoMode false
  have hlevel : s.logLevel = 1 :=
    (hasks s 1).mp (.number (Numeral.readInt?_eq_some_iff.mp (by decide)) (by decide) (by decide))
  obtain ⟨code, hcode, -, hmessages⟩ := hswitches hd
  let expected : List Statement := [.type "float", .declare "x", .load "x", .clear "0",
    .operator "*", .declare "x", .load "x", .clear "0", .operator "+"]
  have hemitted : (d.compile ts).emitted = seedMarkers ++ expected := by decide +kernel
  have hcode' : code = expected := List.append_cancel_left (hcode.symm.trans hemitted)
  have hfailure : (d.compile ts).failure.isSome := by decide +kernel
  have hlines : ∀ message ∈ (d.compile ts).messages 1, Text.newline ∉ message.bytes := by
    decide +kernel
  obtain ⟨hothers, -⟩ := hmore 3 (by decide)
  refine ⟨hscan, hd, hfailure, hlevel, ?_, ?_, hothers⟩
  · rw [hrun, hlevel, hsource source hscan, (hlog 1).2 hlines]
    rfl
  · rw [hmessages, hcode']
    decide +kernel

end Scriptlet
