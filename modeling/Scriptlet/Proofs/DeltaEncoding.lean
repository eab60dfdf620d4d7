import Mathlib
import Scriptlet.Proofs.HandlerCalls
import Scriptlet.Proofs.ModeMarkers
import Scriptlet.Summary

/-!
# The markers are a delta encoding of the modes

A listing marks a type or an operator only where it changes.  Read from front to end, its markers
should give back at every statement the modes that the tokens ask for, and none of them should be
superfluous.  Both are shown here for all dialects whose handlers emit only tests, comparisons,
branches and openings of blocks.

**What the markers say** is `lastType` and `lastOperator` of the statements in front.

**What the tokens ask for** is said without the modes of the compiler.  A `Dispatch` is a token that
the compiler takes for the start of a statement; it takes a note of each of them.  From the tokens
dispatched so far, `typeIn` is the last type word, and `operatorIn` the operator that the next
operand is combined with: the last one in the same expression, or else `+`, or else, for `bool`, the
one that the assignment before left.

`Dialect.sites` is the listing with the token at which each statement is emitted, the tokens
dispatched up to then, and the modes of the compiler.  The modes stand between the two sides: they
are what the markers say (`Chain.marked`), and they are what the tokens ask for (`Reflects`, kept by
every move).

* **`compile_markers_delta`** — no marker repeats the one before it, and at every statement the last
  markers are what the tokens ask for.
-/

namespace Scriptlet

open Compile

/-! ## Markers in a stretch of statements -/

namespace Statement

def markedType? : Statement → Option Text
  | type name => some name
  | _ => none

def markedOperator? : Statement → Option Text
  | operator op => some op
  | _ => none

/-- Whether the statement combines the target with an operand. -/
def isOperand : Statement → Bool
  | push _ | get _ => true
  | _ => false

/-- Whether the statement is one of those that prepare or open a block. -/
def isConditional : Statement → Bool
  | test _ | compare _ | branch | beginBlock => true
  | _ => false

end Statement

/-- The type that the last type marker names. -/
def lastType (l : List Statement) : Option Text :=
  (l.filterMap Statement.markedType?).getLast?

/-- The operator that the last operator marker names. -/
def lastOperator (l : List Statement) : Option Text :=
  (l.filterMap Statement.markedOperator?).getLast?

/-- The last markers name the modes. -/
def Marked (l : List Statement) (m : Modes) : Prop :=
  lastType l = some m.type ∧ lastOperator l = some m.operator

lemma seedMarkers_marked : Marked seedMarkers .initial :=
  ⟨rfl, rfl⟩

lemma Marked.concat {l : List Statement} {m : Modes} (h : Marked l m) (s : Statement) :
    Marked (l ++ [s]) (m.after s) := by
  obtain ⟨htype, hoperator⟩ := h
  unfold Marked lastType lastOperator at *
  cases s <;>
    simp_all [Statement.markedType?, Statement.markedOperator?, Modes.after]

/-- **In a chain, the modes at a statement are those that the last markers before it name.** -/
lemma Chain.marked {first last : Modes} {es : List Emission} (h : Chain first last es)
    {before : List Statement} (hbefore : Marked before first) {i : Nat} {e : Emission}
    (he : es[i]? = some e) : Marked (before ++ (es.map Emission.statement).take i) e.modes := by
  induction es generalizing first before i with
  | nil => simp at he
  | cons e' es ih =>
      cases i with
      | zero =>
          rw [h.head he]
          simpa using hbefore
      | succ i =>
          have hnext := ih h.2 (hbefore.concat e'.statement) he
          simpa using hnext

/-! ## What the tokens ask for -/

/-- A token that starts a statement.  Behind an equals sign stand the tokens of its expression, as
far as they were read. -/
structure Dispatch where
  token : Token
  expression : List Token
deriving DecidableEq

/-- The last type word among the tokens dispatched, the latest of which is in front. -/
def typeIn : List Dispatch → Text
  | [] => "int"
  | dispatch :: earlier =>
    if dispatch.token.kind = .type then dispatch.token.literal else typeIn earlier

/-- The operators in an expression. -/
def operatorsOf (expression : List Token) : List Text :=
  (expression.filter (·.kind = .binaryOperator)).map Token.literal

/-- The operator that the next operand is combined with, behind the tokens dispatched: the last one
of the expression, and `+` in front of it, but for `bool` the one left by the assignment before. -/
def operatorIn : List Dispatch → Text
  | [] => "+"
  | dispatch :: earlier =>
    if dispatch.token.kind = .equals then
      (operatorsOf dispatch.expression).getLast?.getD
        (if typeIn earlier = "bool" then operatorIn earlier else "+")
    else operatorIn earlier

section

variable {t : Token} {ts : List Token} {past : List Dispatch}

lemma typeIn_type (ht : t.kind = .type) : typeIn (⟨t, ts⟩ :: past) = t.literal :=
  if_pos ht

lemma typeIn_other (ht : t.kind ≠ .type) : typeIn (⟨t, ts⟩ :: past) = typeIn past :=
  if_neg ht

lemma operatorIn_equals (ht : t.kind = .equals) :
    operatorIn (⟨t, ts⟩ :: past) =
      (operatorsOf ts).getLast?.getD (if typeIn past = "bool" then operatorIn past else "+") :=
  if_pos ht

lemma operatorIn_other (ht : t.kind ≠ .equals) :
    operatorIn (⟨t, ts⟩ :: past) = operatorIn past :=
  if_neg ht

lemma operatorsOf_concat (ts : List Token) (t : Token) :
    operatorsOf (ts ++ [t]) =
      operatorsOf ts ++ if t.kind = .binaryOperator then [t.literal] else [] := by
  by_cases ht : t.kind = .binaryOperator <;> simp [operatorsOf, List.filter_append, ht]

/-- The token behind the ones read decides if it is an operator. -/
lemma operatorIn_concat (ht : t.kind = .equals) (u : Token) :
    operatorIn (⟨t, ts ++ [u]⟩ :: past) =
      if u.kind = .binaryOperator then u.literal else operatorIn (⟨t, ts⟩ :: past) := by
  rw [operatorIn_equals ht, operatorIn_equals ht, operatorsOf_concat]
  by_cases hu : u.kind = .binaryOperator <;> simp [hu]

end

/-! ## The listing with its dispatches -/

/-- The tokens that a step dispatches. -/
def Compile.Step.dispatched (step : Step) : List Token :=
  step.dispatches.map Prod.snd

/-- A statement with the modes of the compiler, the token at which it is emitted, the tokens before
that one, and those dispatched up to it. -/
structure Site extends Emission where
  read : List Token
  token : Token
  past : List Dispatch

/-- The token belongs to the expression that is being read. -/
def Compile.State.inExpression (s : State) (t : Token) : Bool :=
  match s.place with
  | .expression _ => t.kind ≠ .terminator
  | _ => false

/-- The dispatches at a token, with the token itself if it is dispatched. -/
def Dialect.pastAt (d : Dialect) (s : State) (t : Token) (past : List Dispatch) : List Dispatch :=
  (d.step s t).dispatched.reverse.map (⟨·, []⟩) ++ past

/-- The dispatches behind a token: a token of an expression belongs to the latest of them. -/
def pastBehind (s : State) (t : Token) (past : List Dispatch) : List Dispatch :=
  if s.inExpression t then past.modifyHead fun d => ⟨d.token, d.expression ++ [t]⟩ else past

/-- What the compiler emits for tokens that stand behind those read. -/
def Dialect.sitesFrom (d : Dialect) (s : State) (read : List Token) (past : List Dispatch) :
    List Token → List Site
  | [] => []
  | t :: rest =>
    (d.step s t).statements.map (⟨⟨s.modes, ·⟩, read, t, d.pastAt s t past⟩) ++
      match (d.step s t).next with
      | .ok next => d.sitesFrom next (read ++ [t]) (pastBehind s t (d.pastAt s t past)) rest
      | .error _ => []

/-- The listing of tokens, behind the three markers. -/
def Dialect.sites (d : Dialect) (ts : List Token) : List Site :=
  d.sitesFrom .initial [] [] ts

lemma Dialect.sitesFrom_emissions (d : Dialect) (s : State) (read : List Token)
    (past : List Dispatch) (ts : List Token) :
    (d.sitesFrom s read past ts).map Site.toEmission = d.emissionsFrom s ts := by
  induction ts generalizing s read past with
  | nil => rfl
  | cons t ts ih =>
      rw [Dialect.sitesFrom, Dialect.emissionsFrom, List.map_append, List.map_map]
      congr 1
      cases (d.step s t).next with
      | ok next => exact ih next _ _
      | error e => rfl

/-- The past of a site is what the compiler noted up to the token of the site, and the tokens are
those compiled. -/
structure Site.Anchored (d : Dialect) (ts : List Token) (site : Site) : Prop where
  token : site.read ++ [site.token] <+: ts
  past : (site.past.map Dispatch.token).reverse =
    (d.read .initial (site.read ++ [site.token])).dispatched

/-! ### Which tokens are dispatched -/

section Past

variable {d : Dialect} {s : State} {t : Token} {past : List Dispatch}

/-- At a statement every token is dispatched, except the closing delimiter of an open block. -/
lemma pastAt_statement (hs : s.place = .statement) (ht : t.kind = .closeDelim → s.blocks = []) :
    d.pastAt s t past = ⟨t, []⟩ :: past := by
  rcases step_dispatches d s t with ⟨-, hsites⟩ | ⟨hnot, -⟩
  · rw [Dialect.pastAt, Step.dispatched, hsites]
    rfl
  · exact absurd ⟨hs, ht⟩ hnot

lemma pastAt_of_not_dispatches (h : ¬ s.Dispatches t) : d.pastAt s t past = past := by
  rcases step_dispatches d s t with ⟨hdispatches, -⟩ | ⟨-, hsites⟩
  · exact absurd hdispatches h
  · rw [Dialect.pastAt, Step.dispatched, hsites]
    rfl

lemma pastAt_closing {word : Text} {outer : List Text} (ht : t.kind = .closeDelim)
    (hblocks : s.blocks = word :: outer) : d.pastAt s t past = past :=
  pastAt_of_not_dispatches (by simp [State.Dispatches, ht, hblocks])

lemma pastAt_expression {begun : Bool} (hs : s.place = .expression begun) :
    d.pastAt s t past = past :=
  pastAt_of_not_dispatches (by simp [State.Dispatches, hs])

lemma pastAt_head {handler : Handler} {word : Token} {index : Nat} {tokens : List Token}
    (hs : s.place = .head handler word index tokens) : d.pastAt s t past = past :=
  pastAt_of_not_dispatches (by simp [State.Dispatches, hs])

lemma pastBehind_statement (hs : s.place = .statement) : pastBehind s t past = past := by
  simp [pastBehind, State.inExpression, hs]

lemma pastBehind_head {handler : Handler} {word : Token} {index : Nat} {tokens : List Token}
    (hs : s.place = .head handler word index tokens) : pastBehind s t past = past := by
  simp [pastBehind, State.inExpression, hs]

lemma pastBehind_terminator {begun : Bool} (hs : s.place = .expression begun)
    (ht : t.kind = .terminator) : pastBehind s t past = past := by
  simp [pastBehind, State.inExpression, hs, ht]

lemma pastBehind_operand {begun : Bool} (hs : s.place = .expression begun)
    (ht : t.kind ≠ .terminator) (equals : Token) (before : List Token) :
    pastBehind s t (⟨equals, before⟩ :: past) = ⟨equals, before ++ [t]⟩ :: past := by
  simp [pastBehind, State.inExpression, hs, ht]

lemma pastAt_tokens :
    ((d.pastAt s t past).map Dispatch.token).reverse
      = (past.map Dispatch.token).reverse ++ (d.step s t).dispatched := by
  simp [Dialect.pastAt, Function.comp_def]

lemma pastBehind_tokens : (pastBehind s t past).map Dispatch.token = past.map Dispatch.token := by
  unfold pastBehind
  split_ifs
  · cases past <;> rfl
  · rfl

end Past

/-- What is dispatched while tokens are read, up to one more token. -/
lemma read_concat_dispatched {d : Dialect} {read : List Token} {s : State}
    (h : (d.read .initial read).next = .ok s) (t : Token) :
    (d.read .initial (read ++ [t])).dispatched
      = (d.read .initial read).dispatched ++ (d.step s t).dispatched := by
  rw [Dialect.read_append, Step.andThen, h]
  cases hnext : (d.step s t).next <;>
    simp [Dialect.read, Step.andThen, Step.dispatched, Step.dispatches, hnext]

/-! ## The modes are what the tokens ask for -/

/-- What the handler puts in front of a body only prepares and opens blocks. -/
def Handler.OnlyConditional (handler : Handler) : Prop :=
  ∀ head front, handler head = .ok front → ∀ s ∈ front, s.isConditional

lemma Condition.head_onlyConditional : Handler.OnlyConditional Condition.head := by
  intro head front h
  rcases Condition.head_cases h with ⟨a, -, rfl⟩ | ⟨a, c, b, -, rfl⟩ <;>
    simp [Statement.isConditional]

lemma Handler.OnlyConditional.setsNoMode {handler : Handler}
    (h : Handler.OnlyConditional handler) : Handler.SetsNoMode handler := by
  intro head front hfront s hs m
  have hconditional := h head front hfront s hs
  cases s <;> simp_all [Statement.isConditional, Modes.after]

/-- In the head of a keyword, the handler only prepares and opens blocks. -/
def Compile.Place.OnlyConditional : Place → Prop
  | .head handler _ _ _ => Handler.OnlyConditional handler
  | _ => True

/-- The tokens read end inside the expression behind an equals sign, of which `before` was read; the
equals sign is the latest dispatch. -/
structure InExpression (read : List Token) (past : List Dispatch) (equals : Token)
    (before : List Token) (earlier : List Dispatch) : Prop where
  read : ∃ front, read = front ++ equals :: before
  past : past = ⟨equals, before⟩ :: earlier
  kind : equals.kind = .equals
  unfinished : ∀ u ∈ before, u.kind ≠ .terminator

/-- **The modes of the compiler are what the tokens dispatched ask for.** -/
structure Reflects (read : List Token) (past : List Dispatch) (s : State) : Prop where
  type : typeIn past = s.modes.type
  operator : operatorIn past = s.modes.operator
  expression : ∀ begun, s.place = .expression begun →
    ∃ equals before earlier, InExpression read past equals before earlier
  handler : s.place.OnlyConditional

/-- The modes of a site are what the tokens ask for, and a marker is not superfluous there. -/
structure Site.Fits (site : Site) : Prop where
  scope : ∀ name, site.statement ≠ .scope name
  type_changes : ∀ name, site.statement = .type name → site.modes.type ≠ name
  operator_changes : ∀ op, site.statement = .operator op → site.modes.operator ≠ op
  type : site.statement.isMarker = false → typeIn site.past = site.modes.type
  operator : site.statement.isOperand → operatorIn site.past = site.modes.operator ∧
    ∃ equals before earlier, InExpression site.read site.past equals before earlier
  zero : ∀ literal, site.statement = .clear literal →
    literal = if site.modes.type = "int" ∨ site.modes.type = "float" then ("0" : Text) else "false"

namespace Site.Fits

variable {m : Modes} {read : List Token} {t : Token} {past : List Dispatch} {s : Statement}

lemma typeMarker {type : Text} (hs : s ∈ m.typeMarker type) :
    Site.Fits ⟨⟨m, s⟩, read, t, past⟩ := by
  have hne : m.type ≠ type := by
    rintro rfl
    simp [Modes.typeMarker] at hs
  rw [Modes.mem_typeMarker hs]
  constructor <;> simp_all [Statement.isMarker, Statement.isOperand]

lemma operatorMarker {op : Text} (hs : s ∈ m.operatorMarker op) :
    Site.Fits ⟨⟨m, s⟩, read, t, past⟩ := by
  have hne : m.operator ≠ op := by
    rintro rfl
    simp [Modes.operatorMarker] at hs
  rw [Modes.mem_operatorMarker hs]
  constructor <;> simp_all [Statement.isMarker, Statement.isOperand]

lemma restartMarker (hs : s ∈ m.restartMarker) : Site.Fits ⟨⟨m, s⟩, read, t, past⟩ := by
  unfold Modes.restartMarker at hs
  split_ifs at hs
  · simp at hs
  · exact operatorMarker hs

lemma clear (htype : typeIn past = m.type) : Site.Fits ⟨⟨m, .clear
    (if m.type = "int" ∨ m.type = "float" then "0" else "false")⟩, read, t, past⟩ := by
  constructor <;> simp_all [Statement.isOperand]

lemma operand (htype : typeIn past = m.type) (hoperator : operatorIn past = m.operator)
    (hpast : ∃ equals before earlier, InExpression read past equals before earlier)
    (hs : s.isOperand) : Site.Fits ⟨⟨m, s⟩, read, t, past⟩ := by
  cases s with
  | push _ | get _ =>
      exact ⟨by simp, by simp, by simp, fun _ => htype, fun _ => ⟨hoperator, hpast⟩, by simp⟩
  | _ => simp [Statement.isOperand] at hs

/-- A statement that reads no mode. -/
lemma other (htype : typeIn past = m.type) (hmarker : s.isMarker = false)
    (hoperand : s.isOperand = false) (hclear : ∀ literal, s ≠ .clear literal) :
    Site.Fits ⟨⟨m, s⟩, read, t, past⟩ := by
  constructor <;> cases s <;> simp_all [Statement.isMarker, Statement.isOperand]

end Site.Fits

section Moves

variable {d : Dialect} {s s' : State} {t : Token} {out : List Statement} {read : List Token}
  {past : List Dispatch}

/-- A token dispatched that is neither a type nor an equals sign asks for nothing. -/
lemma Reflects.dispatch (h : Reflects read past s) (hs : s.place = .statement)
    (htype : t.kind ≠ .type) (hequals : t.kind ≠ .equals) :
    Reflects (read ++ [t]) (⟨t, []⟩ :: past) (s.read t) where
  type := (typeIn_other htype).trans h.type
  operator := (operatorIn_other hequals).trans h.operator
  expression begun hplace := by simp [State.read, hs] at hplace
  handler := h.handler

/-- An equals sign asks for the operator that an expression starts with. -/
lemma Reflects.assign (h : Reflects read past s) (ht : t.kind = .equals) :
    Reflects (read ++ [t]) (⟨t, []⟩ :: past)
      { s.read t with modes := s.modes.restart, place := .expression false } where
  type := by
    rw [typeIn_other (by simp [ht]), h.type]
    unfold Modes.restart
    split_ifs <;> rfl
  operator := by
    rw [operatorIn_equals ht, h.type, h.operator]
    unfold Modes.restart
    split_ifs <;> rfl
  expression _ _ := ⟨t, [], past, ⟨read, rfl⟩, rfl, ht, by simp⟩
  handler := trivial

/-- A token of an expression asks for its operator, if it is one. -/
lemma Reflects.operand {equals : Token} {before : List Token} {earlier : List Dispatch}
    (h : Reflects read past s) (hin : InExpression read past equals before earlier)
    (ht : t.kind ≠ .terminator) :
    Reflects (read ++ [t]) (⟨equals, before ++ [t]⟩ :: earlier)
      { s.read t with modes := expressionModes s.modes [t], place := .expression true } := by
  obtain ⟨⟨front, rfl⟩, rfl, hequals, hunfinished⟩ := hin
  have hne : equals.kind ≠ .type := by simp [hequals]
  have htype := (typeIn_other hne).symm.trans h.type
  refine ⟨?_, ?_, fun _ _ => ⟨equals, before ++ [t], earlier, ⟨front, by simp⟩, rfl, hequals, ?_⟩,
    trivial⟩
  · rw [typeIn_other hne, htype]
    unfold expressionModes
    split_ifs <;> rfl
  · rw [operatorIn_concat hequals, h.operator]
    unfold expressionModes
    split_ifs <;> rfl
  · intro u hu
    rcases List.mem_append.mp hu with hu | hu
    · exact hunfinished u hu
    · rwa [List.mem_singleton.mp hu]

/-- **Every move emits what fits, and keeps the modes what the tokens ask for.** -/
theorem Move.fits
    (hd : ∀ (word : Text) (handler : Handler), d.keywords[word]? = some handler →
      Handler.OnlyConditional handler)
    (hmove : Move d s t out s') (h : Reflects read past s) :
    (∀ u ∈ out, Site.Fits ⟨⟨s.modes, u⟩, read, t, d.pastAt s t past⟩) ∧
      Reflects (read ++ [t]) (pastBehind s t (d.pastAt s t past)) s' := by
  cases hmove with
  | type hs ht =>
      rw [pastAt_statement hs (by simp [ht]), pastBehind_statement hs]
      refine ⟨fun u hu => .typeMarker hu, typeIn_type ht, ?_, ?_, h.handler⟩
      · exact (operatorIn_other (by simp [ht])).trans h.operator
      · intro begun hplace
        simp [State.read, hs] at hplace
  | declare hs ht =>
      rw [pastAt_statement hs (by simp [ht]), pastBehind_statement hs]
      refine ⟨fun u hu => ?_, h.dispatch hs (by simp [ht]) (by simp [ht])⟩
      rw [List.mem_singleton.mp hu]
      exact .other ((typeIn_other (by simp [ht])).trans h.type) rfl rfl (by simp)
  | @equals name hs ht hprev hname =>
      rw [pastAt_statement hs (by simp [ht]), pastBehind_statement hs]
      refine ⟨fun u hu => ?_, h.assign ht⟩
      have htype : typeIn (⟨t, []⟩ :: past) = s.modes.type :=
        (typeIn_other (by simp [ht])).trans h.type
      rcases List.mem_append.mp hu with hu | hu
      · simp only [List.mem_cons, List.not_mem_nil, or_false] at hu
        rcases hu with rfl | rfl
        · exact .other htype rfl rfl (by simp)
        · exact .clear htype
      · exact .restartMarker hu
  | ignored hs ht _ _ =>
      rw [pastAt_statement hs (by simp [ht]), pastBehind_statement hs]
      exact ⟨by simp, h.dispatch hs (by simp [ht]) (by simp [ht])⟩
  | keyword hs ht hsome =>
      rw [pastAt_statement hs (by simp [ht]), pastBehind_statement hs]
      obtain ⟨htype, hoperator, -, -⟩ :=
        h.dispatch (t := t) hs (by simp [ht]) (by simp [ht])
      exact ⟨by simp, htype, hoperator, by simp, hd _ _ hsome⟩
  | closing hs ht hblocks =>
      rw [pastAt_closing ht hblocks, pastBehind_statement hs]
      refine ⟨fun u hu => ?_, h.type, h.operator, ?_, h.handler⟩
      · rw [List.mem_singleton.mp hu]
        exact .other h.type rfl rfl (by simp)
      · intro begun hplace
        simp [State.read, hs] at hplace
  | operand hs ht =>
      obtain ⟨equals, before, earlier, hin⟩ := h.expression _ hs
      have hbehind : pastBehind s t (d.pastAt s t past) = ⟨equals, before ++ [t]⟩ :: earlier := by
        rw [pastAt_expression hs, hin.past, pastBehind_operand hs ht]
      rw [hbehind, pastAt_expression hs]
      refine ⟨fun u hu => ?_, h.operand hin ht⟩
      -- the statement is an operand, or the marker of an operator that is not in force
      have hoperand (hu : u.isOperand) : Site.Fits ⟨⟨s.modes, u⟩, read, t, past⟩ :=
        .operand h.type h.operator ⟨equals, before, earlier, hin⟩ hu
      cases hk : t.kind with
      | number | identifier =>
          simp only [expressionCode, hk, List.mem_singleton] at hu
          exact hoperand (by rw [hu]; rfl)
      | binaryOperator =>
          simp only [expressionCode, hk, List.append_nil] at hu
          exact .operatorMarker hu
      | _ => simp [expressionCode, hk] at hu
  | terminator hs ht =>
      rw [pastAt_expression hs, pastBehind_terminator hs ht]
      exact ⟨by simp, h.type, h.operator, by simp, trivial⟩
  | head hs ht =>
      have hhandler := h.handler
      rw [hs] at hhandler
      rw [pastAt_head hs, pastBehind_head hs]
      exact ⟨by simp, h.type, h.operator, by simp, hhandler⟩
  | opening hs ht hfront =>
      have hhandler := h.handler
      rw [hs] at hhandler
      rw [pastAt_head hs, pastBehind_head hs]
      refine ⟨fun u hu => ?_, h.type, h.operator, by simp, trivial⟩
      have hconditional : u.isConditional := by
        rcases List.mem_append.mp hu with hu | hu
        · exact hhandler _ _ hfront u hu
        · split_ifs at hu
          · simp at hu
          · rw [List.mem_singleton.mp hu]
            rfl
      cases u with
      | test _ | compare _ | branch | beginBlock => exact .other h.type rfl rfl (by simp)
      | _ => simp [Statement.isConditional] at hconditional

end Moves

/-! ## The listing -/

/-- Every site of the tokens behind those read fits and is anchored. -/
lemma Dialect.sitesFrom_fits {d : Dialect}
    (hd : ∀ (word : Text) (handler : Handler), d.keywords[word]? = some handler →
      Handler.OnlyConditional handler)
    {read ts : List Token} {past : List Dispatch} {s s' : State} {out : List Statement}
    (hread : (d.read .initial read).next = .ok s)
    (hpast : (past.map Dispatch.token).reverse = (d.read .initial read).dispatched)
    (hreads : Reads d s ts out s') (h : Reflects read past s) :
    ∀ site ∈ d.sitesFrom s read past ts, site.Fits ∧ site.Anchored d (read ++ ts) := by
  induction ts generalizing s read past out with
  | nil => simp [Dialect.sitesFrom]
  | cons t ts ih =>
      intro site hsite
      obtain ⟨s₁, hstep, hrest, -⟩ := hreads.first
      obtain ⟨hfits, hreflects⟩ := (Move.of_step hstep).fits hd h
      have hnext : (d.read .initial (read ++ [t])).next = .ok s₁ := by
        simp [Dialect.read_append, Dialect.read, Step.andThen, hread, hstep]
      have hnow : ((d.pastAt s t past).map Dispatch.token).reverse
          = (d.read .initial (read ++ [t])).dispatched := by
        rw [pastAt_tokens, hpast, read_concat_dispatched hread]
      rw [Dialect.sitesFrom, hstep] at hsite
      rcases List.mem_append.mp hsite with hsite | hsite
      · obtain ⟨u, hu, rfl⟩ := List.mem_map.mp hsite
        exact ⟨hfits u hu, ⟨ts, by simp⟩, hnow⟩
      · have hbehind := ih hnext (by rw [pastBehind_tokens, hnow]) hrest hreflects site hsite
        simpa using hbehind

lemma reflects_initial : Reflects [] [] .initial :=
  ⟨rfl, rfl, fun _ hplace => by simp [State.initial] at hplace, trivial⟩

/-- The listing is the statements of the sites behind the three markers. -/
lemma Dialect.sites_statements {d : Dialect} {ts : List Token} {out : List Statement} {s : State}
    (hreads : Reads d .initial ts out s) : (d.sites ts).map (·.statement) = out := by
  rw [← hreads.statements, ← d.emissionsFrom_statements, ← d.sitesFrom_emissions .initial [] [] ts,
    List.map_map]
  rfl

/-- The last markers before a site name its modes. -/
lemma Dialect.sites_marked {d : Dialect} (hd : d.SetsNoMode) {ts : List Token}
    {out : List Statement} {s : State} (hreads : Reads d .initial ts out s) {i : Nat} {site : Site}
    (hsite : (d.sites ts)[i]? = some site) :
    Marked ((seedMarkers ++ out).take (3 + i)) site.modes := by
  have hemission : (d.emissionsFrom .initial ts)[i]? = some site.toEmission := by
    rw [← d.sitesFrom_emissions .initial [] [] ts, List.getElem?_map]
    exact congrArg (Option.map Site.toEmission) hsite
  have hmarked := (Dialect.emissionsFrom_chain hd hreads trivial).marked seedMarkers_marked
    hemission
  rw [d.emissionsFrom_statements, hreads.statements] at hmarked
  rwa [show 3 + i = seedMarkers.length + i from rfl, List.take_length_add_append]

/-- **The markers are a minimal and faithful delta encoding.**  Let no handler emit anything but
tests, comparisons, branches and openings of blocks.  Then a listing is the three markers and, behind
them, statements of which each was emitted at some token, and for each of these:

* it is no scope marker; a type marker names another type than the last one before it, and an
  operator marker another operator;
* if it is no marker, the last type marker before it names the last type word among the tokens
  dispatched up to then, or `int` if there is none;
* if it is an operand, the last operator marker before it names the last operator of its expression
  in front of it, or if there is none `+`, or if the type is `bool` the operator that the assignment
  before left;
* the zero that an assignment shows is `0` exactly if that type is `int` or `float`, and else
  `false`. -/
theorem compile_markers_delta (d : Dialect) (ts : List Token) (listing : List Statement)
    (hd : ∀ (word : Text) (handler : Handler), d.keywords[word]? = some handler →
      Handler.OnlyConditional handler)
    (h : (d.compile ts).listing = .ok listing) :
    listing = seedMarkers ++ (d.sites ts).map (·.statement) ∧
    ∀ i site, (d.sites ts)[i]? = some site →
      let before := listing.take (3 + i)
      site.Anchored d ts ∧
      (∀ name, site.statement ≠ .scope name) ∧
      (∀ name, site.statement = .type name → lastType before ≠ some name) ∧
      (∀ op, site.statement = .operator op → lastOperator before ≠ some op) ∧
      (site.statement.isMarker = false → lastType before = some (typeIn site.past)) ∧
      (site.statement.isOperand → ∃ equals front earlier,
        InExpression site.read site.past equals front earlier ∧
        lastOperator before = some ((operatorsOf front).getLast?.getD
          (if typeIn earlier = "bool" then operatorIn earlier else "+"))) ∧
      ∀ literal, site.statement = .clear literal →
        literal = if lastType before = some ("int" : Text) ∨ lastType before = some ("float" : Text)
          then ("0" : Text) else "false" := by
  obtain ⟨out, s, hreads, -, rfl⟩ := listing_eq_ok_iff_reads.mp h
  refine ⟨by rw [Dialect.sites_statements hreads], fun i site hsite => ?_⟩
  intro before
  obtain ⟨hfits, hanchored⟩ := Dialect.sitesFrom_fits hd rfl rfl hreads reflects_initial site
    (List.mem_of_getElem? hsite)
  obtain ⟨htype, hoperator⟩ : Marked before site.modes :=
    Dialect.sites_marked (fun word handler hsome => (hd word handler hsome).setsNoMode) hreads hsite
  rw [htype, hoperator]
  simp only [ne_eq, Option.some.injEq]
  refine ⟨hanchored, hfits.scope, hfits.type_changes, hfits.operator_changes,
    fun hmarker => (hfits.type hmarker).symm, fun hoperand => ?_, hfits.zero⟩
  obtain ⟨hmode, equals, front, earlier, hin⟩ := hfits.operator hoperand
  refine ⟨equals, front, earlier, hin, ?_⟩
  rw [← hmode, hin.past, operatorIn_equals hin.kind]

/-- An assignment of type `bool` inside a block keeps the operator of the assignment before it, and
the one behind the block goes back to `+`. -/
theorem compile_markers_delta_kept_operator :
    let source : Text := "a = 1 * 2; if a \x7b bool b = c; \x7d float e = 3 - 4;"
    let ts := (scan source).toOption.getD []
    let listing : List Statement :=
      [.scope "global", .type "int", .operator "+", .declare "a", .load "a", .clear "0", .push "1",
        .operator "*", .push "2", .test "a", .branch, .type "bool", .declare "b", .load "b",
        .clear "false", .get "c", .endBlock, .type "float", .declare "e", .load "e", .clear "0",
        .operator "+", .push "3", .operator "-", .push "4"]
    (Dialect.standard.compile ts).listing = .ok listing ∧
    ∃ site equals front earlier, (Dialect.standard.sites ts)[12]? = some site ∧
      site.statement = .get "c" ∧ site.Anchored .standard ts ∧ typeIn site.past = "bool" ∧
      InExpression site.read site.past equals front earlier ∧
      (operatorsOf front).getLast?.getD
        (if typeIn earlier = "bool" then operatorIn earlier else "+") = "*" := by
  intro source ts listing
  have hd (word : Text) (handler : Handler)
      (h : Dialect.standard.keywords[word]? = some handler) :
      Handler.OnlyConditional handler := by
    rw [Keywords.standard_handler h]
    exact Condition.head_onlyConditional
  have hlisting : (Dialect.standard.compile ts).listing = .ok listing := by decide +kernel
  obtain ⟨hsites, hall⟩ := compile_markers_delta .standard ts listing hd hlisting
  have hget : ((Dialect.standard.sites ts).map (·.statement))[12]? = some (.get "c") := by
    have hat : listing[15]? = some (.get "c") := rfl
    rwa [hsites] at hat
  obtain ⟨site, hsite, hstatement⟩ := Option.map_eq_some_iff.mp (List.getElem?_map ▸ hget)
  obtain ⟨hanchored, -, -, -, htype, hoperator, -⟩ := hall 12 site hsite
  obtain ⟨equals, front, earlier, hin, hlast⟩ := hoperator (by rw [hstatement]; rfl)
  refine ⟨hlisting, site, equals, front, earlier, hsite, hstatement, hanchored, ?_, hin, ?_⟩
  · have hbool : lastType (listing.take (3 + 12)) = some ("bool" : Text) := by decide +kernel
    exact (Option.some.inj (hbool.symm.trans (htype (by rw [hstatement]; rfl)))).symm
  · have hkept : lastOperator (listing.take (3 + 12)) = some ("*" : Text) := by decide +kernel
    exact (Option.some.inj (hkept.symm.trans hlast)).symm

end Scriptlet
