import Mathlib
import Scriptlet.Proofs.HandlerCalls

/-!
# Compiling with a cursor

`Dialect.compile` is handed one token after the other.  Here the tokens are a list, and four loops
share a cursor into it.  Each loop tests for the end of the tokens in its own way, and has its own
rule where it leaves the cursor:

| loop | tests for the end | leaves the cursor |
|---|---|---|
| `run`, over the program | before each statement | behind the tokens |
| `body`, over a block | before each statement | on the closing delimiter |
| `head`, between a keyword and its block | whenever it has moved | on the opening delimiter |
| `expression`, over a value | before each token, and before it moves | on the terminator |

Nothing in their form keeps a look-up inside the list, or a loop from going round for ever.  So a
look-up may fail, and the loops are granted a number of turns.  `Cursor.walk` is the whole of it.

**The compiler at a cursor.**  `Cursor.ahead` is the compilation that comes of it if the compiler
takes over where the cursor stands.  A part of the loops that ends well has left it as it was, and one
that fails has come to what it is (`Ends`).  There is one lemma for each loop, by induction on the
turns that it is granted: `expression_passes`, `head_ends`, `body_passes`, `run_ends`.  On the way
they count the turns taken (`Visited`), so they also say how the cursor moves.

**Turns.**  A loop that is not cut short does the same with more turns (`run_extends`).

* **`walk_safe_progress`** — the loops do what the compiler does.  No look-up fails, and one turn
  more than there are tokens is always enough.
-/

namespace Scriptlet

open Compile

/-! ## The loops -/

/-- A place among the tokens, with the modes in force there and all that was done on the way. -/
structure Cursor where
  index : Nat := 0
  modes : Modes := .initial
  events : List Event := Modes.opening
  /-- Where the cursor stood at each turn of a loop. -/
  turns : List Nat := []
deriving DecidableEq

namespace Cursor

/-- Why the loops stop before their end. -/
inductive Reason where
  /-- A token was looked up where there is none. -/
  | outside (index : Nat)
  /-- No more turns are granted. -/
  | exhausted
  /-- The tokens do not compile. -/
  | refused (e : SyntaxError)
deriving DecidableEq

structure Halt where
  reason : Reason
  cursor : Cursor
deriving DecidableEq

def record (c : Cursor) (events : List Event) : Cursor :=
  { c with events := c.events ++ events }

/-- A change of modes, with the events that it makes. -/
def change (c : Cursor) (switch : Modes × List Event) : Cursor :=
  { c.record switch.2 with modes := switch.1 }

/-- A note that a statement starts with a token. -/
def noted (c : Cursor) (t : Token) : Cursor :=
  c.record [.note (.dispatch c.index t)]

/-- A loop takes a turn. -/
def turn (c : Cursor) : Cursor :=
  { c with turns := c.turns ++ [c.index] }

def advance (c : Cursor) : Cursor :=
  { c with index := c.index + 1 }

section Index

variable (c : Cursor)

@[simp] lemma noted_index (t : Token) : (c.noted t).index = c.index := rfl

@[simp] lemma turn_index : c.turn.index = c.index := rfl

@[simp] lemma advance_index : c.advance.index = c.index + 1 := rfl

end Index

section Loops

variable (d : Dialect) (tokens : List Token)

def lookUp (c : Cursor) (index : Nat) : Except Halt Token :=
  match tokens[index]? with
  | some t => .ok t
  | none => .error ⟨.outside index, c⟩

/-- The token at the cursor, or the last one if the cursor is behind all of them. -/
def nearest (c : Cursor) : Except Halt Token :=
  if c.index < tokens.length then c.lookUp tokens c.index
  else if 0 < tokens.length then c.lookUp tokens (tokens.length - 1)
  else .ok ⟨.type, "", 0, 0⟩

def refuse {α : Type} (c : Cursor) (cause : SyntaxError.Cause) : Except Halt α := do
  let t ← c.nearest tokens
  .error ⟨.refused ⟨t, c.index, cause⟩, c⟩

/-- What a token inside an expression adds. -/
def operand (c : Cursor) (t : Token) : Cursor :=
  match t.kind with
  | .number => c.record [.emit (.push t.literal)]
  | .identifier => c.record [.emit (.get t.literal)]
  | .binaryOperator => c.change (c.modes.setOperator t.literal)
  | _ => c

def expression : Nat → Cursor → Except Halt Cursor
  | 0, c => .error ⟨.exhausted, c⟩
  | budget + 1, c => do
    let c := c.turn
    if tokens.length ≤ c.index then c.refuse tokens .noTerminator
    else
      let t ← c.lookUp tokens c.index
      if t.kind = .terminator then return c
      else
        let c := c.operand t
        if c.index = tokens.length - 1 then c.refuse tokens .noTerminator
        else expression budget c.advance

/-- The start of an assignment. -/
def assigning (c : Cursor) (name : Token) : Cursor :=
  (c.record [.emit (.load name.literal), .emit (.clear c.modes.zeroLiteral)]).change
    c.modes.startExpression

/-- An equals sign, which assigns to the token before it. -/
def assign (budget : Nat) (c : Cursor) : Except Halt Cursor :=
  if c.index < 1 then c.refuse tokens .noVariable
  else do
    let name ← c.lookUp tokens (c.index - 1)
    if name.kind = .identifier then expression tokens budget (c.assigning name).advance
    else c.refuse tokens .noVariable

/-- The head of a keyword, with the tokens found in it so far. -/
def head (word : Token) : Nat → Cursor → List Token → Except Halt (Cursor × List Token)
  | 0, c, _ => .error ⟨.exhausted, c⟩
  | budget + 1, c, found => do
    let c := c.advance.turn
    if tokens.length ≤ c.index then c.refuse tokens (.noOpening word.literal)
    else
      let t ← c.lookUp tokens c.index
      if t.kind = .openDelim then return (c, found)
      else head word budget c (found ++ [t])

/-- A keyword.  Its block is read by `body`, which stands for the loop below. -/
def keyword (body : Token → Cursor → Except Halt Cursor) (budget : Nat) (word : Token)
    (c : Cursor) : Except Halt Cursor :=
  match d.keywords[word.literal]? with
  | none =>
    if d.strict then c.refuse tokens (.unsupportedKeyword word.literal)
    else .ok (c.record [.note (.ignored word.literal c.index)])
  | some handler => do
    let (inner, found) ← head tokens word budget c []
    let called := inner.record [.call word.literal found]
    match handler found with
    | .error e => .error ⟨.refused ⟨word, c.index, .badHead word.literal e⟩, called⟩
    | .ok front => body word (called.record ((Step.openBody front).map .emit)).advance

/-- A statement, from the token at the cursor on. -/
def dispatch (body : Token → Cursor → Except Halt Cursor) (budget : Nat) (c : Cursor) :
    Except Halt Cursor := do
  let t ← c.lookUp tokens c.index
  let c := c.noted t
  match t.kind with
  | .type => return c.change (c.modes.setType t.literal)
  | .identifier => return c.record [.emit (.declare t.literal)]
  | .equals => c.assign tokens budget
  | .keyword => keyword d tokens body budget t c
  | .unknown _ => c.refuse tokens (.unknownToken t)
  | _ => c.refuse tokens (.illegalStart t)

def body : Nat → Token → Cursor → Except Halt Cursor
  | 0, _, c => .error ⟨.exhausted, c⟩
  | budget + 1, word, c => do
    let c := c.turn
    if tokens.length ≤ c.index then c.refuse tokens (.noClosing word.literal)
    else
      let t ← c.lookUp tokens c.index
      if t.kind = .closeDelim then return c.record [.emit .endBlock]
      else
        let c ← dispatch d tokens (body budget) budget c
        body budget word c.advance

def run : Nat → Cursor → Except Halt Cursor
  | 0, c => .error ⟨.exhausted, c⟩
  | budget + 1, c => do
    let c := c.turn
    if c.index < tokens.length then
      let c ← dispatch d tokens (body d tokens budget) budget c
      run budget c.advance
    else return c

/-- **The loops over all tokens**, with so many turns granted. -/
def walk (budget : Nat) : Except Halt Cursor :=
  run d tokens budget {}

end Loops

/-! ## The compiler at a cursor -/

section Compiler

variable {d : Dialect} {tokens : List Token} {c c' : Cursor} {t : Token} {place place' : Place}
  {blocks blocks' : List Text} {e : SyntaxError}

/-- The state of the compiler in front of the token at the cursor. -/
def state (tokens : List Token) (place : Place) (blocks : List Text) (c : Cursor) : State where
  index := c.index
  previous := if c.index = 0 then none else tokens[c.index - 1]?
  modes := c.modes
  place := place
  blocks := blocks

/-- **What comes of the compilation** if the compiler goes on from the cursor. -/
def ahead (d : Dialect) (tokens : List Token) (place : Place) (blocks : List Text) (c : Cursor) :
    Compilation :=
  (d.compileFrom (c.state tokens place blocks) (tokens.drop c.index)).prepend c.events

lemma ahead_turn : c.turn.ahead d tokens place blocks = c.ahead d tokens place blocks := rfl

lemma exists_token {i : Nat} (h : i < tokens.length) : ∃ t, tokens[i]? = some t :=
  ⟨_, List.getElem?_eq_getElem h⟩

lemma index_lt (ht : tokens[c.index]? = some t) : c.index < tokens.length :=
  (List.getElem?_eq_some_iff.mp ht).1

lemma drop_eq_cons (ht : tokens[c.index]? = some t) :
    tokens.drop c.index = t :: tokens.drop (c.index + 1) := by
  obtain ⟨hlt, rfl⟩ := List.getElem?_eq_some_iff.mp ht
  exact List.drop_eq_getElem_cons hlt

/-- The compiler accepts the token at the cursor. -/
lemma ahead_step (ht : tokens[c.index]? = some t) (events : List Event)
    (hstep : d.step (c.state tokens place blocks) t = ⟨events, .ok
      { (c.state tokens place blocks).read t with
        modes := c'.modes, place := place', blocks := blocks' }⟩)
    (hindex : c'.index = c.index) (hevents : c'.events = c.events ++ events) :
    c.ahead d tokens place blocks = c'.advance.ahead d tokens place' blocks' := by
  have hstate : c'.advance.state tokens place' blocks' =
      { (c.state tokens place blocks).read t with
        modes := c'.modes, place := place', blocks := blocks' } := by
    simp [state, advance, State.read, hindex, ht]
  rw [ahead, ahead, drop_eq_cons ht, Dialect.compileFrom, hstep, hstate]
  simp [Compilation.prepend, advance, hindex, hevents]

/-- The compiler refuses the token at the cursor. -/
lemma ahead_refused (ht : tokens[c.index]? = some t) {events : List Event}
    (hstep : d.step (c.state tokens place blocks) t = ⟨events, .error e⟩) :
    c.ahead d tokens place blocks = .fail (c.events ++ events) e := by
  rw [ahead, drop_eq_cons ht, Dialect.compileFrom, hstep]
  simp [Compilation.prepend, Compilation.fail]

/-- The tokens end at the cursor. -/
lemma ahead_behind (hindex : c.index = tokens.length) :
    c.ahead d tokens place blocks = match (c.state tokens place blocks).finish with
      | none => ⟨c.events, none⟩
      | some e => .fail c.events e := by
  rw [ahead, hindex, List.drop_length, Dialect.compileFrom]
  cases (c.state tokens place blocks).finish <;> simp [Compilation.prepend, Compilation.fail]

/-- The token at the cursor starts a statement. -/
lemma ahead_started (ht : tokens[c.index]? = some t) (hclose : t.kind = .closeDelim → blocks = [])
    (events : List Event)
    (hstart : d.start (c.state tokens .statement blocks) t = ⟨events, .ok
      { (c.state tokens .statement blocks).read t with
        modes := c'.modes, place := place', blocks := blocks' }⟩)
    (hindex : c'.index = c.index) (hevents : c'.events = (c.noted t).events ++ events) :
    c.ahead d tokens .statement blocks = c'.advance.ahead d tokens place' blocks' := by
  have hdispatches : (c.state tokens .statement blocks).Dispatches t := ⟨rfl, hclose⟩
  refine ahead_step ht (.note (.dispatch c.index t) :: events) ?_ hindex ?_
  · rw [step_dispatching hdispatches, hstart]
    rfl
  · simp [hevents, noted, record]

end Compiler

/-! ## How the loops end -/

/-- There was a turn at every place up to the cursor, in order, and only one at each. -/
def Visited (c : Cursor) : Prop :=
  c.turns = List.range (c.index + 1)

/-- There was a turn at every place before the cursor, in order, and only one at each. -/
def Fresh (c : Cursor) : Prop :=
  c.turns = List.range c.index

lemma Fresh.turn {c : Cursor} (h : c.Fresh) : c.turn.Visited := by
  rw [Fresh] at h
  simp [Visited, Cursor.turn, h, List.range_succ]

lemma Visited.advance {c : Cursor} (h : c.Visited) : c.advance.Fresh := h

/-- **A part of the loops ends** well, or in the failure that the whole compilation is. -/
inductive Ends {α : Type} (tokens : List Token) (whole : Compilation) (good : α → Prop) :
    Except Halt α → Prop where
  | ok {a : α} : good a → Ends tokens whole good (.ok a)
  | refused {c : Cursor} {e : SyntaxError} : c.Visited → c.index ≤ tokens.length →
      e.token ∈ tokens → e.index ≤ tokens.length → whole = .fail c.events e →
      Ends tokens whole good (.error ⟨.refused e, c⟩)

/-- The cursor is on the last token that was read, and a statement may start behind it. -/
structure Past (d : Dialect) (tokens : List Token) (whole : Compilation) (blocks : List Text)
    (start : Nat) (c : Cursor) : Prop where
  start_le : start ≤ c.index
  lt_length : c.index < tokens.length
  visited : c.Visited
  ahead : c.advance.ahead d tokens .statement blocks = whole

/-- A part of the loops passes over what it reads, or fails. -/
def Passes (d : Dialect) (tokens : List Token) (whole : Compilation) (blocks : List Text)
    (start : Nat) (r : Except Halt Cursor) : Prop :=
  Ends tokens whole (Past d tokens whole blocks start) r

section Ends

variable {α β : Type} {d : Dialect} {tokens : List Token} {whole : Compilation} {good : α → Prop}
  {c : Cursor} {t : Token} {place : Place} {blocks : List Text} {cause : SyntaxError.Cause}

lemma Ends.mono {good' : α → Prop} {r : Except Halt α} (h : Ends tokens whole good r)
    (hgood : ∀ a, good a → good' a) : Ends tokens whole good' r := by
  cases h with
  | ok ha => exact .ok (hgood _ ha)
  | refused hvisited hindex htoken hplace hwhole =>
      exact .refused hvisited hindex htoken hplace hwhole

lemma Ends.bind {good' : β → Prop} {r : Except Halt α} {f : α → Except Halt β}
    (h : Ends tokens whole good r) (hf : ∀ a, good a → Ends tokens whole good' (f a)) :
    Ends tokens whole good' (r >>= f) := by
  cases h with
  | ok ha => exact hf _ ha
  | refused hvisited hindex htoken hplace hwhole =>
      exact .refused hvisited hindex htoken hplace hwhole

lemma Passes.mono {start start' : Nat} {r : Except Halt Cursor}
    (h : Passes d tokens whole blocks start r) (hstart : start' ≤ start) :
    Passes d tokens whole blocks start' r :=
  Ends.mono h fun _ hc => ⟨hstart.trans hc.start_le, hc.lt_length, hc.visited, hc.ahead⟩

lemma lookUp_eq {i : Nat} (ht : tokens[i]? = some t) : c.lookUp tokens i = .ok t := by
  rw [lookUp, ht]

lemma ok_bind (a : α) (f : α → Except Halt β) : (Except.ok a >>= f) = f a := rfl

/-- An error names the nearest token. -/
lemma refuse_eq (hnearest : c.nearest tokens = .ok t) :
    (c.refuse tokens cause : Except Halt α) = .error ⟨.refused ⟨t, c.index, cause⟩, c⟩ := by
  rw [refuse, hnearest]
  rfl

/-- The token at the cursor is refused. -/
lemma Ends.refuse (ht : tokens[c.index]? = some t) (hvisited : c.Visited)
    (hwhole : whole = .fail c.events ⟨t, c.index, cause⟩) :
    Ends tokens whole good (c.refuse tokens cause) := by
  have hlt := index_lt ht
  have hnearest : c.nearest tokens = .ok t := by
    rw [nearest, if_pos hlt, lookUp_eq ht]
  rw [refuse_eq hnearest]
  exact .refused hvisited hlt.le (List.mem_of_getElem? ht) hlt.le hwhole

/-- The tokens end too early.  The error names the last one, so there has to be one. -/
lemma Ends.refuse_behind (hpos : 0 < c.index) (hindex : c.index = tokens.length)
    (hvisited : c.Visited) (hfinish : (c.state tokens place blocks).finish
      = some ⟨(c.state tokens place blocks).lastToken, c.index, cause⟩) :
    Ends tokens (c.ahead d tokens place blocks) good (c.refuse tokens cause) := by
  obtain ⟨last, hlast⟩ : ∃ last, tokens[tokens.length - 1]? = some last :=
    exists_token (by omega)
  have hlastToken : (c.state tokens place blocks).lastToken = last := by
    simp [State.lastToken, state, hindex, hlast, show tokens.length ≠ 0 by omega]
  have hnearest : c.nearest tokens = .ok last := by
    rw [nearest, if_neg (by omega), if_pos (by omega), lookUp_eq hlast]
  rw [refuse_eq hnearest, ahead_behind hindex, hfinish, hlastToken]
  exact .refused hvisited hindex.le (List.mem_of_getElem? hlast) hindex.le rfl

/-- The token at the cursor should start a statement, and does not. -/
lemma Ends.not_started (ht : tokens[c.index]? = some t)
    (hclose : t.kind = .closeDelim → blocks = []) (hvisited : c.Visited)
    (hstart : d.start (c.state tokens .statement blocks) t
      = .refuse (c.state tokens .statement blocks) t cause) :
    Ends tokens (c.ahead d tokens .statement blocks) good ((c.noted t).refuse tokens cause) := by
  have hdispatches : (c.state tokens .statement blocks).Dispatches t := ⟨rfl, hclose⟩
  have hstep : d.step (c.state tokens .statement blocks) t
      = ⟨[.note (.dispatch c.index t)], .error ⟨t, c.index, cause⟩⟩ := by
    rw [step_dispatching hdispatches, hstart]
    rfl
  exact .refuse (c := c.noted t) ht hvisited (ahead_refused ht hstep)

end Ends

/-! ## Expressions and heads -/

section Runs

variable {d : Dialect} {tokens : List Token} {blocks : List Text}

variable (d tokens blocks) in
lemma operand_step (c : Cursor) (begun : Bool) {t : Token} (hk : t.kind ≠ .terminator) :
    ∃ events, d.step (c.state tokens (.expression begun) blocks) t = ⟨events, .ok
        { (c.state tokens (.expression begun) blocks).read t with
          modes := (c.operand t).modes, place := .expression true, blocks }⟩ ∧
      (c.operand t).events = c.events ++ events ∧ (c.operand t).index = c.index ∧
      (c.operand t).turns = c.turns := by
  cases hkind : t.kind <;>
    simp_all [Dialect.step, Step.expression, operand, state, record, change, State.read]

/-- **The loop over an expression** leaves the cursor on the terminator. -/
lemma expression_passes {budget : Nat} {c : Cursor} {begun : Bool} (hpos : 0 < c.index)
    (hindex : c.index < tokens.length ∨ c.index = tokens.length ∧ begun = false)
    (hbudget : tokens.length < c.index + budget) (hfresh : c.Fresh) :
    Passes d tokens (c.ahead d tokens (.expression begun) blocks) blocks c.index
      (expression tokens budget c) := by
  induction budget generalizing c begun with
  | zero => omega
  | succ budget ih =>
      rw [expression, ← ahead_turn]
      rcases hindex with hlt | ⟨hend, rfl⟩
      · obtain ⟨t, ht⟩ := exists_token hlt
        rw [if_neg (by simpa using hlt), turn_index, lookUp_eq ht, ok_bind]
        by_cases hk : t.kind = .terminator
        · rw [if_pos hk]
          refine .ok ⟨le_rfl, hlt, hfresh.turn, (ahead_step (c := c) ht [] ?_ rfl ?_).symm⟩
          · simp [Dialect.step, Step.expression, state, hk, State.read]
          · simp
        · rw [if_neg hk]
          obtain ⟨events, hstep, hevents, hindex, hturns⟩ :=
            operand_step d tokens blocks c.turn begun hk
          have hvisited : (c.turn.operand t).Visited := by
            rw [Visited, hturns, hindex]
            exact hfresh.turn
          rw [ahead_step (c := c.turn) ht events hstep hindex hevents]
          rw [turn_index] at hindex
          dsimp only
          split_ifs with hlast
          · -- the loop sees here that no token follows, the compiler when it comes to the end
            have hbehind : (c.turn.operand t).advance.index = tokens.length := by
              rw [advance_index]
              omega
            refine .refuse (t := t) (by rwa [hindex]) hvisited ?_
            rw [ahead_behind hbehind]
            simp [State.finish, state, State.lastToken, advance, hindex, ht]
          · refine (ih ?_ (.inl ?_) ?_ hvisited.advance).mono ?_
            all_goals
              rw [advance_index]
              omega
      · rw [if_pos (by simp [hend])]
        exact Ends.refuse_behind (c := c.turn) hpos hend hfresh.turn rfl

/-- **The loop over a head** leaves the cursor on the opening delimiter. -/
lemma head_ends {budget : Nat} {c : Cursor} {handler : Handler} {word : Token} {index : Nat}
    {found : List Token} (hlt : c.index < tokens.length)
    (hbudget : tokens.length < c.index + 1 + budget) (hvisited : c.Visited) :
    Ends tokens (c.advance.ahead d tokens (.head handler word index found) blocks)
      (fun p => c.index < p.1.index ∧ p.1.Visited ∧
        (∃ t, tokens[p.1.index]? = some t ∧ t.kind = .openDelim) ∧
        p.1.ahead d tokens (.head handler word index p.2) blocks
          = c.advance.ahead d tokens (.head handler word index found) blocks)
      (head tokens word budget c found) := by
  induction budget generalizing c found with
  | zero => omega
  | succ budget ih =>
      rw [head]
      split_ifs with hend
      · have hbehind : c.advance.index = tokens.length := le_antisymm hlt hend
        exact Ends.refuse_behind (c := c.advance.turn) (Nat.succ_pos _) hbehind
          hvisited.advance.turn rfl
      · have hlt' : c.advance.index < tokens.length := Nat.lt_of_not_le hend
        obtain ⟨t, ht⟩ := exists_token hlt'
        rw [turn_index, lookUp_eq ht, ok_bind]
        by_cases hk : t.kind = .openDelim
        · rw [if_pos hk]
          exact .ok ⟨Nat.lt_succ_self _, hvisited.advance.turn, ⟨t, ht, hk⟩, rfl⟩
        · rw [if_neg hk]
          have hahead : c.advance.ahead d tokens (.head handler word index found) blocks
              = c.advance.turn.advance.ahead d tokens (.head handler word index (found ++ [t]))
                  blocks := by
            refine ahead_step (c := c.advance) ht [] ?_ rfl (by simp [turn])
            simp [Dialect.step, Step.head, state, hk, State.read, turn]
          rw [hahead]
          refine (ih (c := c.advance.turn) hlt' ?_ hvisited.advance.turn).mono ?_
          · simp only [turn_index, advance_index]
            omega
          · rintro p ⟨hindex, hp⟩
            exact ⟨Nat.lt_of_succ_lt hindex, hp⟩

end Runs

/-! ## Statements

A statement is read with a loop for bodies at hand, of which is asked that it passes over every body
behind the cursor.  The loop over a body meets this by induction. -/

/-- The loop passes over the bodies that start behind a place. -/
def BodyPasses (d : Dialect) (tokens : List Token) (blocks : List Text) (start : Nat)
    (body : Token → Cursor → Except Halt Cursor) : Prop :=
  ∀ word c, start < c.index → c.index ≤ tokens.length → c.Fresh →
    Passes d tokens (c.ahead d tokens .statement (word.literal :: blocks)) blocks c.index
      (body word c)

section Statements

variable {d : Dialect} {tokens : List Token} {blocks : List Text} {c : Cursor} {t : Token}
  {budget : Nat} {body : Token → Cursor → Except Halt Cursor}

lemma assign_passes (ht : tokens[c.index]? = some t) (hk : t.kind = .equals)
    (hbudget : tokens.length < c.index + 1 + budget) (hvisited : c.Visited) :
    Passes d tokens (c.ahead d tokens .statement blocks) blocks c.index
      ((c.noted t).assign tokens budget) := by
  have hlt := index_lt ht
  have hclose : t.kind = .closeDelim → blocks = [] := by simp [hk]
  have hrefused (hnone : ∀ name, (c.state tokens .statement blocks).previous = some name →
      name.kind ≠ .identifier) :
      Passes d tokens (c.ahead d tokens .statement blocks) blocks c.index
        ((c.noted t).refuse tokens .noVariable) := by
    refine Ends.not_started ht hclose hvisited ?_
    rw [Dialect.start, hk]
    dsimp only
    unfold Step.assign
    split
    · next name hprevious => exact absurd rfl (hnone _ hprevious)
    · rfl
  rw [assign, noted_index]
  by_cases hfirst : c.index < 1
  · rw [if_pos hfirst]
    refine hrefused fun name hname => ?_
    simp [state, show c.index = 0 by omega] at hname
  · rw [if_neg hfirst]
    obtain ⟨name, hname⟩ : ∃ name, tokens[c.index - 1]? = some name := exists_token (by omega)
    have hprevious : (c.state tokens .statement blocks).previous = some name := by
      simp [state, show c.index ≠ 0 by omega, hname]
    rw [lookUp_eq hname, ok_bind]
    by_cases hkind : name.kind = .identifier
    · rw [if_pos hkind]
      have hahead : c.ahead d tokens .statement blocks
          = ((c.noted t).assigning name).advance.ahead d tokens (.expression false) blocks := by
        refine ahead_started ht hclose _ ?_ rfl (by simp [assigning, change, record]; rfl)
        obtain ⟨kind, literal, line, col⟩ := name
        subst hkind
        simp only [Dialect.start, hk, Step.assign, hprevious]
        rfl
      rw [hahead]
      refine Passes.mono ?_ (Nat.le_succ c.index)
      refine expression_passes (Nat.succ_pos _) ?_ hbudget (Visited.advance hvisited)
      exact (Nat.lt_or_eq_of_le (Nat.succ_le_of_lt hlt)).imp_right fun h => ⟨h, rfl⟩
    · rw [if_neg hkind]
      refine hrefused fun name' hname' => ?_
      rw [hprevious, Option.some.injEq] at hname'
      exact hname' ▸ hkind

lemma keyword_passes (hbody : BodyPasses d tokens blocks c.index body)
    (ht : tokens[c.index]? = some t) (hk : t.kind = .keyword)
    (hbudget : tokens.length < c.index + 1 + budget) (hvisited : c.Visited) :
    Passes d tokens (c.ahead d tokens .statement blocks) blocks c.index
      (keyword d tokens body budget t (c.noted t)) := by
  have hlt := index_lt ht
  have hclose : t.kind = .closeDelim → blocks = [] := by simp [hk]
  rw [keyword]
  cases hfound : d.keywords[t.literal]? with
  | none =>
      dsimp only
      split_ifs with hstrict
      · refine Ends.not_started ht hclose hvisited ?_
        simp [Dialect.start, hk, Dialect.keyword, hfound, hstrict]
      · have hahead : c.ahead d tokens .statement blocks
            = ((c.noted t).record [.note (.ignored t.literal c.index)]).advance.ahead d tokens
                .statement blocks := by
          refine ahead_started ht hclose _ ?_ rfl rfl
          simp only [Dialect.start, hk, Dialect.keyword, hfound, hstrict]
          rfl
        exact .ok ⟨le_rfl, hlt, hvisited, hahead.symm⟩
  | some handler =>
      have hahead : c.ahead d tokens .statement blocks
          = (c.noted t).advance.ahead d tokens (.head handler t c.index []) blocks := by
        refine ahead_started ht hclose [] ?_ rfl (by simp)
        simp only [Dialect.start, hk, Dialect.keyword, hfound]
        rfl
      rw [hahead]
      refine (head_ends (c := c.noted t) hlt hbudget hvisited).bind ?_
      rintro ⟨inner, found⟩ ⟨hindex, hinner, ⟨opening, hopening, hkind⟩, hwhole⟩
      rw [← hwhole]
      dsimp only at hindex hinner hopening ⊢
      have hinnerlt := index_lt hopening
      cases hfront : handler found with
      | error error =>
          -- the error stands at the keyword, the cursor at the opening delimiter
          refine .refused hinner hinnerlt.le (List.mem_of_getElem? ht) hlt.le ?_
          refine ahead_refused hopening ?_
          simp [Dialect.step, Step.head, state, hkind, hfront]
      | ok front =>
          have hopened : inner.ahead d tokens (.head handler t c.index found) blocks
              = ((inner.record [.call t.literal found]).record
                  ((Step.openBody front).map .emit)).advance.ahead d tokens .statement
                  (t.literal :: blocks) := by
            refine ahead_step hopening _ ?_ rfl (by simp [record]; rfl)
            simp [Dialect.step, Step.head, state, hkind, hfront, State.read, record]
          rw [hopened]
          refine Passes.mono (hbody t _ ?_ hinnerlt hinner.advance) ?_
          · exact Nat.lt_succ_of_lt hindex
          · exact Nat.le_succ_of_le hindex.le

/-- **A statement**, from the token at the cursor on. -/
lemma dispatch_passes (hbody : BodyPasses d tokens blocks c.index body)
    (ht : tokens[c.index]? = some t) (hclose : t.kind = .closeDelim → blocks = [])
    (hbudget : tokens.length < c.index + 1 + budget) (hvisited : c.Visited) :
    Passes d tokens (c.ahead d tokens .statement blocks) blocks c.index
      (dispatch d tokens body budget c) := by
  have hlt := index_lt ht
  rw [dispatch, lookUp_eq ht, ok_bind]
  cases hk : t.kind with
  | type =>
      have hahead : c.ahead d tokens .statement blocks
          = ((c.noted t).change (c.modes.setType t.literal)).advance.ahead d tokens .statement
              blocks := by
        refine ahead_started ht hclose _ ?_ rfl rfl
        simp only [Dialect.start, hk]
        rfl
      exact .ok ⟨le_rfl, hlt, hvisited, hahead.symm⟩
  | identifier =>
      have hahead : c.ahead d tokens .statement blocks
          = ((c.noted t).record [.emit (.declare t.literal)]).advance.ahead d tokens .statement
              blocks := by
        refine ahead_started ht hclose _ ?_ rfl rfl
        simp only [Dialect.start, hk]
        rfl
      exact .ok ⟨le_rfl, hlt, hvisited, hahead.symm⟩
  | equals => exact assign_passes ht hk hbudget hvisited
  | keyword => exact keyword_passes hbody ht hk hbudget hvisited
  | _ =>
      refine Ends.not_started ht hclose hvisited ?_
      simp only [Dialect.start, hk]

end Statements

/-! ## Bodies and programs -/

section Programs

variable {d : Dialect} {tokens : List Token} {blocks : List Text}

/-- **The loop over a body** leaves the cursor on the closing delimiter. -/
lemma body_passes {budget : Nat} {c : Cursor} {word : Token} (hpos : 0 < c.index)
    (hindex : c.index ≤ tokens.length) (hbudget : tokens.length < c.index + budget)
    (hfresh : c.Fresh) :
    Passes d tokens (c.ahead d tokens .statement (word.literal :: blocks)) blocks c.index
      (body d tokens budget word c) := by
  -- the blocks vary, because a body inside this one has one more open
  induction budget generalizing c word blocks with
  | zero => omega
  | succ budget ih =>
      rw [body, ← ahead_turn]
      split_ifs with hend
      · have hbehind : c.index = tokens.length := le_antisymm hindex hend
        exact Ends.refuse_behind (c := c.turn) hpos hbehind hfresh.turn rfl
      · have hlt : c.index < tokens.length := Nat.lt_of_not_le hend
        obtain ⟨t, ht⟩ := exists_token hlt
        rw [turn_index, lookUp_eq ht, ok_bind]
        by_cases hk : t.kind = .closeDelim
        · rw [if_pos hk]
          have hahead : c.turn.ahead d tokens .statement (word.literal :: blocks)
              = (c.turn.record [.emit .endBlock]).advance.ahead d tokens .statement blocks := by
            refine ahead_step (c := c.turn) ht [.emit .endBlock] ?_ rfl rfl
            simp only [Dialect.step, Dialect.statement, state, hk]
            rfl
          exact .ok ⟨le_rfl, hlt, hfresh.turn, hahead.symm⟩
        · rw [if_neg hk]
          have hbody : BodyPasses d tokens (word.literal :: blocks) c.index (body d tokens budget) :=
            fun _ c' hstart hc' hfresh' => ih (by omega) hc' (by omega) hfresh'
          refine Ends.bind (dispatch_passes (c := c.turn) hbody ht (absurd · hk) ?_ hfresh.turn) ?_
          · rw [turn_index]
            omega
          · rintro c' ⟨hstart, hlt', hvisited, hahead⟩
            rw [← hahead]
            rw [turn_index] at hstart
            refine (ih (c := c'.advance) (Nat.succ_pos _) hlt' ?_ hvisited.advance).mono ?_
            all_goals
              rw [advance_index]
              omega

/-- **The loop over the whole program** leaves the cursor behind the tokens. -/
lemma run_ends {budget : Nat} {c : Cursor} (hindex : c.index ≤ tokens.length)
    (hbudget : tokens.length < c.index + budget) (hfresh : c.Fresh) :
    Ends tokens (c.ahead d tokens .statement [])
      (fun last => last.index = tokens.length ∧ last.Visited ∧
        c.ahead d tokens .statement [] = ⟨last.events, none⟩)
      (run d tokens budget c) := by
  induction budget generalizing c with
  | zero => omega
  | succ budget ih =>
      rw [run, ← ahead_turn]
      split_ifs with hlt
      · obtain ⟨t, ht⟩ := exists_token hlt
        have hbody : BodyPasses d tokens [] c.index (body d tokens budget) :=
          fun _ c' hstart hc' hfresh' => body_passes (by omega) hc' (by omega) hfresh'
        refine Ends.bind (dispatch_passes (c := c.turn) hbody ht (fun _ => rfl) ?_ hfresh.turn) ?_
        · rw [turn_index]
          omega
        · rintro c' ⟨hstart, hlt', hvisited, hahead⟩
          rw [turn_index] at hstart
          rw [← hahead]
          refine ih hlt' ?_ hvisited.advance
          rw [advance_index]
          omega
      · have hbehind : c.turn.index = tokens.length := le_antisymm hindex (Nat.le_of_not_lt hlt)
        exact .ok ⟨hbehind, hfresh.turn, ahead_behind hbehind⟩

end Programs

/-! ## More turns change nothing -/

/-- The second result is the first one, unless that was cut short. -/
def Extends {α : Type} (r r' : Except Halt α) : Prop :=
  r = r' ∨ ∃ c, r = .error ⟨.exhausted, c⟩

section Extends

variable {α β : Type} {d : Dialect} {tokens : List Token}

lemma Extends.refl (r : Except Halt α) : Extends r r :=
  .inl rfl

lemma Extends.bind {r r' : Except Halt α} {f f' : α → Except Halt β} (h : Extends r r')
    (hf : ∀ a, Extends (f a) (f' a)) : Extends (r >>= f) (r' >>= f') := by
  rcases h with rfl | ⟨c, rfl⟩
  · cases r with
    | ok a => exact hf a
    | error halt => exact .refl _
  · exact .inr ⟨c, rfl⟩

lemma expression_extends (budget : Nat) (c : Cursor) :
    Extends (expression tokens budget c) (expression tokens (budget + 1) c) := by
  induction budget generalizing c with
  | zero => exact .inr ⟨c, rfl⟩
  | succ budget ih =>
      rw [expression, expression]
      split_ifs
      · exact .refl _
      · refine (Extends.refl _).bind fun t => ?_
        split_ifs
        · exact .refl _
        · dsimp only
          split_ifs
          · exact .refl _
          · exact ih _

lemma head_extends (word : Token) (budget : Nat) (c : Cursor) (found : List Token) :
    Extends (head tokens word budget c found) (head tokens word (budget + 1) c found) := by
  induction budget generalizing c found with
  | zero => exact .inr ⟨c, rfl⟩
  | succ budget ih =>
      rw [head, head]
      split_ifs
      · exact .refl _
      · refine (Extends.refl _).bind fun t => ?_
        split_ifs
        · exact .refl _
        · exact ih _ _

lemma dispatch_extends {body body' : Token → Cursor → Except Halt Cursor} (budget : Nat)
    (c : Cursor) (hbody : ∀ word c, Extends (body word c) (body' word c)) :
    Extends (dispatch d tokens body budget c) (dispatch d tokens body' (budget + 1) c) := by
  refine (Extends.refl _).bind fun t => ?_
  split
  · exact .refl _
  · exact .refl _
  · rw [assign, assign]
    split_ifs
    · exact .refl _
    · refine (Extends.refl _).bind fun name => ?_
      split_ifs
      · exact expression_extends budget _
      · exact .refl _
  · rw [keyword, keyword]
    split
    · exact .refl _
    · refine (head_extends t budget _ []).bind ?_
      rintro ⟨inner, found⟩
      dsimp only
      split
      · exact .refl _
      · exact hbody t _
  · exact .refl _
  · exact .refl _

lemma body_extends (budget : Nat) (word : Token) (c : Cursor) :
    Extends (body d tokens budget word c) (body d tokens (budget + 1) word c) := by
  induction budget generalizing word c with
  | zero => exact .inr ⟨c, rfl⟩
  | succ budget ih =>
      rw [body, body]
      split_ifs
      · exact .refl _
      · refine (Extends.refl _).bind fun t => ?_
        split_ifs
        · exact .refl _
        · exact (dispatch_extends budget c.turn ih).bind fun c' => ih word c'.advance

variable (d tokens) in
lemma run_extends (budget : Nat) (c : Cursor) :
    Extends (run d tokens budget c) (run d tokens (budget + 1) c) := by
  induction budget generalizing c with
  | zero => exact .inr ⟨c, rfl⟩
  | succ budget ih =>
      rw [run, run]
      split_ifs
      · exact (dispatch_extends budget c.turn (body_extends budget)).bind fun c' => ih c'.advance
      · exact .refl _

end Extends

/-! ## The whole walk -/

section Walk

variable (d : Dialect) (tokens : List Token)

lemma ahead_start : ({} : Cursor).ahead d tokens .statement [] = d.compile tokens := rfl

lemma walk_ends {budget : Nat} (h : tokens.length < budget) :
    Ends tokens (d.compile tokens)
      (fun last => last.index = tokens.length ∧ last.Visited ∧
        d.compile tokens = ⟨last.events, none⟩)
      (walk d tokens budget) := by
  rw [← ahead_start]
  exact run_ends (Nat.zero_le _) (by simpa using h) rfl

/-- One turn more than there are tokens is as good as any larger number. -/
lemma walk_eq {budget : Nat} (h : tokens.length < budget) :
    walk d tokens budget = walk d tokens (tokens.length + 1) := by
  induction budget, h using Nat.le_induction with
  | base => rfl
  | succ budget hbudget ih =>
      rcases run_extends d tokens budget {} with heq | ⟨c, hcut⟩
      · exact heq.symm.trans ih
      · have hends := walk_ends d tokens hbudget
        rw [walk, hcut] at hends
        cases hends

end Walk

/-- **The cursor is safe and makes progress.**  For every dialect and every list of tokens:

* with one turn more than there are tokens, and with any larger number, the loops come to one and the
  same end.  They are not cut short, and no token is looked up where there is none: their end is that
  of the compilation, with all its events and its error if it has one;
* an error names one of the tokens, and neither the error nor the cursor is further than right behind
  the last token;
* the turns of the four loops find the cursor at `0`, `1`, `2` and so on, so that from each turn to
  the next it has moved on;
* the positions of the tokens dispatched increase strictly, so that no token is dispatched twice. -/
theorem walk_safe_progress (d : Dialect) (tokens : List Token) :
    ∃ (outcome : Except Halt Cursor) (c : Cursor),
      (∀ budget, tokens.length < budget → walk d tokens budget = outcome) ∧
      (outcome = .ok c ∧ c.index = tokens.length ∧ d.compile tokens = ⟨c.events, none⟩ ∨
        ∃ e, outcome = .error ⟨.refused e, c⟩ ∧ d.compile tokens = .fail c.events e ∧
          e.token ∈ tokens ∧ e.index ≤ tokens.length) ∧
      c.index ≤ tokens.length ∧
      c.turns = List.range (c.index + 1) ∧
      (d.compile tokens).dispatches.Pairwise (·.1 < ·.1) ∧
      ∀ site ∈ (d.compile tokens).dispatches, tokens[site.1]? = some site.2 := by
  have hsorted : (d.compile tokens).dispatches.Pairwise (·.1 < ·.1) :=
    compileFrom_dispatches_sorted.2
  have hsites : ∀ site ∈ (d.compile tokens).dispatches, tokens[site.1]? = some site.2 := by
    rintro ⟨i, t⟩ hsite
    obtain ⟨before, after, _, rfl, rfl, _⟩ := mem_dispatches.mp hsite
    simp
  have hends := walk_ends d tokens (Nat.lt_succ_self _)
  have hbudget : ∀ budget, tokens.length < budget →
      walk d tokens budget = walk d tokens (tokens.length + 1) := fun _ h => walk_eq d tokens h
  generalize walk d tokens (tokens.length + 1) = outcome at hends hbudget
  refine ⟨outcome, ?_⟩
  cases hends with
  | @ok c hgood =>
      obtain ⟨hindex, hvisited, hwhole⟩ := hgood
      exact ⟨c, hbudget, .inl ⟨rfl, hindex, hwhole⟩, hindex.le, hvisited, hsorted, hsites⟩
  | @refused c e hvisited hindex htoken hplace hwhole =>
      exact ⟨c, hbudget, .inr ⟨e, rfl, hwhole, htoken, hplace⟩, hindex, hvisited, hsorted, hsites⟩

/-- Two blocks and an expression are open where the tokens end.  The loops stop on the last token,
whatever number of turns is granted. -/
theorem walk_safe_progress_truncated :
    let word : Token := ⟨.keyword, "if", 0, 0⟩
    let x : Token := ⟨.identifier, "x", 0, 0⟩
    let opening : Token := ⟨.openDelim, "\x7b", 0, 0⟩
    let equals : Token := ⟨.equals, "=", 0, 0⟩
    let one : Token := ⟨.number, "1", 0, 0⟩
    let tokens : List Token := [word, x, opening, word, one, opening, x, equals, one]
    (∀ budget, 9 < budget → ∃ c, walk .standard tokens budget
        = .error ⟨.refused ⟨one, 8, .noTerminator⟩, c⟩ ∧ c.index = 8 ∧ c.turns = List.range 9) ∧
    (Dialect.standard.compile tokens).dispatches = [(0, word), (3, word), (6, x), (7, equals)] := by
  intro word x opening equals one tokens
  obtain ⟨outcome, c, hbudget, hend, -, hturns, -⟩ := walk_safe_progress .standard tokens
  have hfailure : (Dialect.standard.compile tokens).failure = some ⟨one, 8, .noTerminator⟩ := by
    decide +kernel
  have hindex : (walk .standard tokens 10).mapError (·.cursor.index) = .error 8 := by
    decide +kernel
  refine ⟨fun budget h => ⟨c, ?_⟩, by decide +kernel⟩
  rw [hbudget 10 (by decide)] at hindex
  rw [hbudget budget h]
  rcases hend with ⟨-, -, hnone⟩ | ⟨e, rfl, hfail, -⟩
  · simp [hnone] at hfailure
  · rw [hfail] at hfailure
    have hcursor : c.index = 8 := Except.error.inj hindex
    exact ⟨by rw [Option.some.inj hfailure], hcursor, by rw [hturns, hcursor]⟩

end Cursor

end Scriptlet
