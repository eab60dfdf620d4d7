import Mathlib
import Scriptlet.Proofs.ErrorPlaces

/-!
# When handlers are called, and with what

The compiler collects the head of a keyword token by token and calls the handler at the opening
delimiter.  Here the calls are said without any of that: they are read off the tokens.

**Dispatched tokens.**  Where a statement may start, the token that stands there is dispatched, and
the compiler takes a note of its position.  `Dialect.AtStatement` says by the tokens before it where
a statement may start; `mem_dispatches_iff` says that the tokens dispatched are those that stand at
such a place, closing delimiters of open blocks apart.

**Calls.**  `compileFrom_calls` goes by induction over the tokens: the calls from some state on are
the one that is pending, if the state is inside a head, and those of the keywords dispatched from
there on.

**Runs.**  From inside a head only an opening delimiter leads back to a statement, and from inside
an expression only a terminator.  So nothing is dispatched in between (`not_inRun_head`,
`not_inRun_value`).

* **`handler_calls_exact`** — all of it for every list of tokens, whether it compiles or not.
-/

namespace Scriptlet

open Compile

/-! ## Calls and dispatches -/

/-- A token dispatched, with its position. -/
def Event.dispatch? : Event → Option (Nat × Token)
  | note (.dispatch index token) => some (index, token)
  | _ => none

/-- The tokens that were dispatched, each with its position. -/
def Compilation.dispatches (c : Compilation) : List (Nat × Token) :=
  c.events.filterMap Event.dispatch?

/-- The tokens in front of the first opening delimiter, if there is one. -/
def headIn? (ts : List Token) : Option (List Token) :=
  if ts.any (·.kind = .openDelim) then some (ts.takeWhile (·.kind ≠ .openDelim)) else none

/-- The call of the handler of a token in front of others: if it is a keyword with a handler and
there is an opening delimiter behind it, with the tokens up to the first one. -/
def Dialect.callIn? (d : Dialect) (t : Token) (rest : List Token) : Option (Text × List Token) :=
  if t.kind = .keyword ∧ t.literal ∈ d.keywords then (headIn? rest).map (t.literal, ·) else none

/-- The call of the handler of the token at a position. -/
def Dialect.callAt? (d : Dialect) (ts : List Token) (site : Nat × Token) :
    Option (Text × List Token) :=
  d.callIn? site.2 (ts.drop (site.1 + 1))

lemma headIn?_cons (t : Token) (rest : List Token) :
    headIn? (t :: rest)
      = if t.kind = .openDelim then some [] else (headIn? rest).map (t :: ·) := by
  unfold headIn?
  by_cases ht : t.kind = .openDelim
  · simp [ht]
  · by_cases hrest : rest.any (·.kind = .openDelim)
    · simp [ht, hrest]
    · simp [ht, hrest]

namespace Compile

/-- The call that is pending inside a head. -/
def State.pending? (s : State) (rest : List Token) : Option (Text × List Token) :=
  match s.place with
  | .head _ word _ tokens => (headIn? rest).map fun more => (word.literal, tokens ++ more)
  | _ => none

namespace Step

def calls (step : Step) : List (Text × List Token) :=
  step.events.filterMap Event.call?

def dispatches (step : Step) : List (Nat × Token) :=
  step.events.filterMap Event.dispatch?

/-- The call that is pending behind a step. -/
def pending? (step : Step) (rest : List Token) : Option (Text × List Token) :=
  match step.next with
  | .ok next => next.pending? rest
  | .error _ => none

end Step

end Compile

section Steps

variable {d : Dialect} {s s' : State} {t : Token}

/-- Quiet events are no calls and no dispatches. -/
lemma views_of_quiet {events : List Event} (h : ∀ e ∈ events, e.IsQuiet) :
    events.filterMap Event.call? = [] ∧ events.filterMap Event.dispatch? = [] := by
  constructor
  · refine List.filterMap_eq_nil_iff.mpr fun e he => ?_
    have hquiet := h e he
    unfold Event.call?
    split
    · exact hquiet.elim
    · rfl
  · refine List.filterMap_eq_nil_iff.mpr fun e he => ?_
    have hquiet := h e he
    unfold Event.dispatch?
    split
    · exact hquiet.elim
    · rfl

/-- What is not dispatched where a statement may start closes a block. -/
lemma step_closing (hs : s.place = .statement) (h : ¬ s.Dispatches t) :
    ∃ outer, d.step s t = ⟨[.emit .endBlock], .ok { s.read t with blocks := outer }⟩ := by
  have ht : t.kind = .closeDelim ∧ s.blocks ≠ [] := by
    simpa [State.Dispatches, hs] using h
  obtain ⟨word, outer, hblocks⟩ := List.exists_cons_of_ne_nil ht.2
  refine ⟨outer, ?_⟩
  simp only [Dialect.step, hs, Dialect.statement, ht.1, hblocks]

lemma step_expression_silent {begun : Bool} (hs : s.place = .expression begun) :
    (d.step s t).calls = [] ∧ (d.step s t).dispatches = [] :=
  views_of_quiet (step_expression_quiet hs)

lemma step_head_calls {handler : Handler} {word : Token} {index : Nat} {tokens : List Token}
    (hs : s.place = .head handler word index tokens) :
    (d.step s t).calls = (if t.kind = .openDelim then [(word.literal, tokens)] else []) ∧
      (d.step s t).dispatches = [] := by
  obtain ⟨rest, hrest, hevents⟩ := step_head_events (d := d) (t := t) hs
  obtain ⟨hcalls, hdispatches⟩ := views_of_quiet hrest
  rw [Step.calls, Step.dispatches, hevents, List.filterMap_append, List.filterMap_append, hcalls,
    hdispatches]
  split_ifs <;> exact ⟨rfl, rfl⟩

/-- **What a step dispatches**: its token, or nothing. -/
lemma step_dispatches (d : Dialect) (s : State) (t : Token) :
    s.Dispatches t ∧ (d.step s t).dispatches = [(s.index, t)] ∨
      ¬ s.Dispatches t ∧ (d.step s t).dispatches = [] := by
  by_cases h : s.Dispatches t
  · refine .inl ⟨h, ?_⟩
    rw [step_dispatching h]
    exact congrArg ((s.index, t) :: ·) (views_of_quiet (start_quiet d s t)).2
  · refine .inr ⟨h, ?_⟩
    cases hs : s.place with
    | expression begun => exact (step_expression_silent hs).2
    | head handler word index tokens => exact (step_head_calls hs).2
    | statement =>
        obtain ⟨outer, hstep⟩ := step_closing (d := d) hs h
        rw [hstep]
        rfl

lemma step_dispatches_index {site : Nat × Token} (h : site ∈ (d.step s t).dispatches) :
    site.1 = s.index := by
  rcases step_dispatches d s t with ⟨-, hsites⟩ | ⟨-, hsites⟩
  · rw [hsites] at h
    rw [List.mem_singleton.mp h]
  · simp [hsites] at h

lemma pending?_statement (hs : s.place = .statement) (rest : List Token) :
    s.pending? rest = none := by
  simp only [State.pending?, hs]

lemma pending?_expression {begun : Bool} (hs : s.place = .expression begun) (rest : List Token) :
    s.pending? rest = none := by
  simp only [State.pending?, hs]

/-- The start of a statement leads into a head if its token is a keyword with a handler. -/
lemma start_pending (hs : s.place = .statement) (rest : List Token) :
    (d.start s t).pending? rest = d.callIn? t rest := by
  have hread : (s.read t).place = .statement := hs
  unfold Dialect.start
  split
  · next hk => simp [Dialect.callIn?, hk, Step.pending?, State.pending?, hread]
  · next hk => simp [Dialect.callIn?, hk, Step.pending?, State.pending?, hread]
  · next hk =>
      unfold Step.assign
      split <;> simp [Dialect.callIn?, hk, Step.pending?, State.pending?, Step.refuse]
  · next hk =>
      unfold Dialect.keyword
      cases hfound : d.keywords[t.literal]? with
      | some handler =>
          have hmem : t.literal ∈ d.keywords := by
            rw [Std.TreeMap.mem_iff_isSome_getElem?, hfound]
            rfl
          simp [Dialect.callIn?, hk, hmem, Step.pending?, State.pending?]
      | none =>
          have hmem : t.literal ∉ d.keywords := by
            rw [Std.TreeMap.mem_iff_isSome_getElem?, hfound]
            simp
          cases d.strict <;>
            simp [Dialect.callIn?, hmem, Step.pending?, State.pending?, hread, Step.refuse]
  · next hk => simp [Dialect.callIn?, hk, Step.pending?, Step.refuse]
  · next _ _ _ hk _ =>
      have hkind : t.kind ≠ .keyword := hk
      simp [Dialect.callIn?, hkind, Step.pending?, Step.refuse]

/-- **Calls, one step**: the call pending before the step and that of the token dispatched are the
call made and the one pending behind the step. -/
lemma step_pending (d : Dialect) (s : State) (t : Token) (rest : List Token) :
    (s.pending? (t :: rest)).toList ++
        (d.step s t).dispatches.filterMap (fun site => d.callIn? site.2 rest)
      = (d.step s t).calls ++ ((d.step s t).pending? rest).toList := by
  cases hs : s.place with
  | statement =>
      rw [pending?_statement hs]
      rcases step_dispatches d s t with ⟨h, hdispatches⟩ | ⟨h, hdispatches⟩
      · have hcalls : (d.step s t).calls = [] := by
          rw [step_dispatching h]
          exact (views_of_quiet (start_quiet d s t)).1
        have hpending : (d.step s t).pending? rest = d.callIn? t rest := by
          rw [step_dispatching h]
          exact start_pending hs rest
        rw [hdispatches, hcalls, hpending]
        cases hcall : d.callIn? t rest <;> simp [hcall]
      · obtain ⟨outer, hstep⟩ := step_closing (d := d) hs h
        rw [hdispatches, hstep]
        simp [Step.calls, Event.call?, Step.pending?, State.pending?, State.read, hs]
  | expression begun =>
      obtain ⟨hcalls, hdispatches⟩ := step_expression_silent (d := d) (t := t) hs
      have hpending : (d.step s t).pending? rest = none := by
        simp only [Dialect.step, hs, Step.expression]
        split <;> simp [Step.pending?, State.pending?]
      rw [pending?_expression hs, hcalls, hdispatches, hpending]
      rfl
  | head handler word index tokens =>
      obtain ⟨hcalls, hdispatches⟩ := step_head_calls (d := d) (t := t) hs
      rw [hcalls, hdispatches, List.filterMap_nil, List.append_nil]
      simp only [State.pending?, hs, headIn?_cons]
      by_cases ht : t.kind = .openDelim
      · have hpending : (d.step s t).pending? rest = none := by
          simp only [Dialect.step, hs, Step.head, ht, if_true]
          split <;> simp [Step.pending?, State.pending?]
        simp [ht, hpending]
      · have hpending : (d.step s t).pending? rest
            = (headIn? rest).map fun more => (word.literal, tokens ++ t :: more) := by
          simp [Dialect.step, hs, Step.head, ht, Step.pending?, State.pending?]
        simp only [ht, if_false, hpending, Option.map_map, List.nil_append]
        rfl

end Steps

/-! ## The whole run -/

section Runs

variable {d : Dialect} {s s' : State} {t : Token} {ts rest : List Token}

/-- A view of the events of a compilation that leaves failures out: first that of a step, then that
of what follows. -/
lemma compileFrom_view {α : Type} (f : Event → Option α) (hf : ∀ e, f (.note (.failed e)) = none) :
    (d.compileFrom s (t :: rest)).events.filterMap f
      = (d.step s t).events.filterMap f ++ match (d.step s t).next with
          | .ok next => (d.compileFrom next rest).events.filterMap f
          | .error _ => [] := by
  rw [Dialect.compileFrom]
  cases hstep : d.step s t with
  | mk events next =>
      cases next with
      | ok next => simp [Compilation.prepend]
      | error e => simp [Compilation.fail, hf]

lemma compileFrom_nil_view {α : Type} (f : Event → Option α)
    (hf : ∀ e, f (.note (.failed e)) = none) : (d.compileFrom s []).events.filterMap f = [] := by
  rw [Dialect.compileFrom]
  cases s.finish with
  | none => rfl
  | some e => simp [Compilation.fail, hf]

lemma compileFrom_dispatches_nil : (d.compileFrom s []).dispatches = [] :=
  compileFrom_nil_view _ fun _ => rfl

lemma compileFrom_dispatches_cons :
    (d.compileFrom s (t :: rest)).dispatches
      = (d.step s t).dispatches ++ match (d.step s t).next with
          | .ok next => (d.compileFrom next rest).dispatches
          | .error _ => [] :=
  compileFrom_view _ fun _ => rfl

lemma compileFrom_calls_cons :
    (d.compileFrom s (t :: rest)).calls
      = (d.step s t).calls ++ match (d.step s t).next with
          | .ok next => (d.compileFrom next rest).calls
          | .error _ => [] :=
  compileFrom_view _ fun _ => rfl

/-- **The calls from a state on**, behind some tokens of a list: the one that is pending, and those
of the tokens dispatched. -/
theorem compileFrom_calls (hindex : ts.drop s.index = rest) :
    (d.compileFrom s rest).calls
      = (s.pending? rest).toList ++ (d.compileFrom s rest).dispatches.filterMap (d.callAt? ts) := by
  induction rest generalizing s with
  | nil =>
      have hpending : s.pending? [] = none := by
        unfold State.pending?
        split <;> rfl
      have hcalls : (d.compileFrom s []).calls = [] := compileFrom_nil_view _ fun _ => rfl
      rw [hpending, hcalls, compileFrom_dispatches_nil]
      rfl
  | cons t rest ih =>
      have hdrop : ts.drop (s.index + 1) = rest := by
        rw [← List.tail_drop, hindex, List.tail_cons]
      -- the token dispatched, if there is one, stands at the index of the state
      have hsite : (d.step s t).dispatches.filterMap (d.callAt? ts)
          = (d.step s t).dispatches.filterMap fun site => d.callIn? site.2 rest := by
        refine List.filterMap_congr fun site hsite => ?_
        rw [Dialect.callAt?, step_dispatches_index hsite, hdrop]
      have hstep := step_pending d s t rest
      rw [compileFrom_calls_cons, compileFrom_dispatches_cons, List.filterMap_append, hsite,
        ← List.append_assoc, hstep, List.append_assoc]
      congr 1
      cases hnext : (d.step s t).next with
      | error e => simp [Step.pending?, hnext]
      | ok next =>
          have hnextIndex : ts.drop next.index = rest := by rw [step_index hnext, hdrop]
          simp only [Step.pending?, hnext]
          exact ih hnextIndex

/-- Tokens are dispatched in the order of their positions. -/
lemma compileFrom_dispatches_sorted :
    (∀ site ∈ (d.compileFrom s rest).dispatches, s.index ≤ site.1) ∧
      (d.compileFrom s rest).dispatches.Pairwise (·.1 < ·.1) := by
  induction rest generalizing s with
  | nil => simp [compileFrom_dispatches_nil]
  | cons t rest ih =>
      rw [compileFrom_dispatches_cons]
      have hone : (d.step s t).dispatches.Pairwise (·.1 < ·.1) := by
        rcases step_dispatches d s t with ⟨-, h⟩ | ⟨-, h⟩ <;> simp [h]
      cases hnext : (d.step s t).next with
      | error e =>
          rw [List.append_nil]
          exact ⟨fun site hsite => (step_dispatches_index hsite).ge, hone⟩
      | ok next =>
          obtain ⟨hlower, hsorted⟩ := ih (s := next)
          rw [step_index hnext] at hlower
          constructor
          · intro site hsite
            rcases List.mem_append.mp hsite with hsite | hsite
            · exact (step_dispatches_index hsite).ge
            · exact (Nat.le_succ _).trans (hlower site hsite)
          · refine List.pairwise_append.mpr ⟨hone, hsorted, fun site hsite site' hsite' => ?_⟩
            rw [step_dispatches_index hsite]
            exact hlower site' hsite'

/-- What is dispatched from a state on stands behind tokens that lead to a state at which it is
dispatched. -/
lemma mem_compileFrom_dispatches {i : Nat} {u : Token} :
    (i, u) ∈ (d.compileFrom s rest).dispatches ↔
      ∃ before after s', rest = before ++ u :: after ∧ (d.read s before).next = .ok s' ∧
        s'.index = i ∧ s'.Dispatches u := by
  induction rest generalizing s with
  | nil => simp [compileFrom_dispatches_nil]
  | cons t rest ih =>
      rw [compileFrom_dispatches_cons, List.mem_append]
      constructor
      · rintro (hmem | hmem)
        · rcases step_dispatches d s t with ⟨h, hsites⟩ | ⟨-, hsites⟩
          · rw [hsites, List.mem_singleton] at hmem
            obtain ⟨rfl, rfl⟩ := Prod.mk.inj hmem
            exact ⟨[], rest, s, rfl, rfl, rfl, h⟩
          · simp [hsites] at hmem
        · cases hnext : (d.step s t).next with
          | error e => simp [hnext] at hmem
          | ok next =>
              simp only [hnext] at hmem
              obtain ⟨before, after, s', rfl, hread, hsite⟩ := ih.mp hmem
              refine ⟨t :: before, after, s', rfl, ?_, hsite⟩
              rw [(Dialect.read_cons hnext before).1, hread]
      · rintro ⟨before, after, s', hrest, hread, rfl, hsite⟩
        cases before with
        | nil =>
            obtain ⟨rfl, rfl⟩ := List.cons.inj hrest
            obtain rfl : s = s' := by simpa [Dialect.read] using hread
            rcases step_dispatches d s t with ⟨-, hsites⟩ | ⟨h, -⟩
            · exact .inl (by simp [hsites])
            · exact absurd hsite h
        | cons t' before =>
            obtain ⟨rfl, rfl⟩ := List.cons.inj hrest
            cases hnext : (d.step s t).next with
            | error e => simp [Dialect.read, Step.andThen, hnext] at hread
            | ok next =>
                rw [(Dialect.read_cons hnext before).1] at hread
                exact .inr (ih.mpr ⟨before, after, s', rfl, hread, rfl, hsite⟩)

end Runs

/-! ## Where a statement may start -/

/-- **A statement may start behind these tokens**, with so many blocks open.  Nothing is said here
of what stands inside heads and expressions, but for the delimiter or terminator that ends them. -/
inductive Dialect.AtStatement (d : Dialect) : List Token → Nat → Prop where
  | start : AtStatement d [] 0
  | word {before : List Token} {depth : Nat} {t : Token} : AtStatement d before depth →
      t.kind = .type ∨ t.kind = .identifier → AtStatement d (before ++ [t]) depth
  /-- A keyword that is passed over. -/
  | ignored {before : List Token} {depth : Nat} {t : Token} : AtStatement d before depth →
      t.kind = .keyword → t.literal ∉ d.keywords → d.strict = false →
      AtStatement d (before ++ [t]) depth
  | assigned {before : List Token} {depth : Nat} {name equals terminator : Token}
      {value : List Token} : AtStatement d before depth → before.getLast? = some name →
      name.kind = .identifier → equals.kind = .equals → (∀ t ∈ value, t.kind ≠ .terminator) →
      terminator.kind = .terminator →
      AtStatement d (before ++ equals :: (value ++ [terminator])) depth
  | opened {before head : List Token} {depth : Nat} {t opening : Token} {handler : Handler}
      {front : List Statement} : AtStatement d before depth → t.kind = .keyword →
      d.keywords[t.literal]? = some handler → (∀ u ∈ head, u.kind ≠ .openDelim) →
      handler head = .ok front → opening.kind = .openDelim →
      AtStatement d (before ++ t :: (head ++ [opening])) (depth + 1)
  | closed {before : List Token} {depth : Nat} {t : Token} : AtStatement d before (depth + 1) →
      t.kind = .closeDelim → AtStatement d (before ++ [t]) depth

section Statements

variable {d : Dialect} {ts us before : List Token} {s s' : State} {depth : Nat}

lemma Attains.reads (h : Attains d ts s) {out : List Statement} (hus : Reads d s us out s') :
    Attains d (ts ++ us) s' :=
  h.of_read hus.next

/-- The compiler comes to such places. -/
lemma Dialect.AtStatement.attains (h : d.AtStatement before depth) :
    ∃ s, Attains d before s ∧ s.place = .statement ∧ s.blocks.length = depth := by
  induction h with
  | start => exact ⟨_, .start, rfl, rfl⟩
  | word _ hk ih =>
      obtain ⟨s, hs, hplace, hblocks⟩ := ih
      rcases hk with hk | hk
      · exact ⟨_, hs.move (.type hplace hk), hplace, hblocks⟩
      · exact ⟨_, hs.move (.declare hplace hk), hplace, hblocks⟩
  | ignored _ hk hnone hstrict ih =>
      obtain ⟨s, hs, hplace, hblocks⟩ := ih
      have hfound : d.keywords[_]? = none := Std.TreeMap.getElem?_eq_none hnone
      exact ⟨_, hs.move (.ignored hplace hk hfound hstrict), hplace, hblocks⟩
  | @assigned before depth name equals terminator value _ hlast hname hk hvalue ht ih =>
      obtain ⟨s, hs, hplace, hblocks⟩ := ih
      have hprevious : s.previous = some name := hs.previous.trans hlast
      have hequals := hs.move (.equals hplace hk hprevious hname)
      obtain ⟨s₁, hreads, ⟨begun, hplace₁⟩, -, hblocks₁⟩ := reads_expression (d := d)
        (s := { s.read equals with modes := s.modes.restart, place := .expression false }) rfl hvalue
      have hlist : before ++ equals :: (value ++ [terminator])
          = before ++ [equals] ++ value ++ [terminator] := by simp
      rw [hlist]
      exact ⟨_, (hequals.reads hreads).move (.terminator hplace₁ ht), rfl,
        (congrArg List.length hblocks₁).trans hblocks⟩
  | @opened before head depth t opening handler front _ hk hsome hhead hfront hopen ih =>
      obtain ⟨s, hs, hplace, hblocks⟩ := ih
      have hword := hs.move (.keyword hplace hk hsome)
      obtain ⟨s₁, hreads, hplace₁, -, hblocks₁⟩ := reads_head (d := d)
        (s := { s.read t with place := .head handler t s.index [] }) rfl hhead
      have hlist : before ++ t :: (head ++ [opening]) = before ++ [t] ++ head ++ [opening] := by simp
      have hdepth : s₁.blocks.length + 1 = depth + 1 := by
        rw [hblocks₁, ← hblocks]
        rfl
      rw [hlist]
      exact ⟨_, (hword.reads hreads).move (.opening hplace₁ hopen hfront), rfl, hdepth⟩
  | closed _ hk ih =>
      obtain ⟨s, hs, hplace, hblocks⟩ := ih
      cases hstack : s.blocks with
      | nil => simp [hstack] at hblocks
      | cons word outer =>
          refine ⟨_, hs.move (.closing hplace hk hstack), hplace, ?_⟩
          simpa [hstack] using hblocks

/-- What a state of the compiler says of the tokens before it. -/
def Compile.State.Describes (d : Dialect) (ts : List Token) (s : State) : Prop :=
  match s.place with
  | .statement => d.AtStatement ts s.blocks.length
  | .expression _ => ∃ before name equals value, ts = before ++ equals :: value ∧
      d.AtStatement before s.blocks.length ∧ before.getLast? = some name ∧
      name.kind = .identifier ∧ equals.kind = .equals ∧ ∀ t ∈ value, t.kind ≠ .terminator
  | .head handler word _ tokens => ∃ before, ts = before ++ word :: tokens ∧
      d.AtStatement before s.blocks.length ∧ word.kind = .keyword ∧
      d.keywords[word.literal]? = some handler ∧ ∀ t ∈ tokens, t.kind ≠ .openDelim

/-- And it comes to no others. -/
lemma Attains.describes (h : Attains d ts s) : s.Describes d ts := by
  induction h with
  | start => exact .start
  | @move ts s s' t out hts hmove ih =>
      cases hmove with
      | type hs hk =>
          simp only [State.Describes, hs] at ih
          simpa [State.Describes, State.read, hs] using ih.word (.inl hk)
      | declare hs hk =>
          simp only [State.Describes, hs] at ih
          simpa [State.Describes, State.read, hs] using ih.word (.inr hk)
      | @equals name hs hk hprevious hname =>
          simp only [State.Describes, hs] at ih
          have hlast : ts.getLast? = some name := hts.previous.symm.trans hprevious
          exact ⟨ts, name, t, [], rfl, ih, hlast, hname, hk, by simp⟩
      | ignored hs hk hnone hstrict =>
          simp only [State.Describes, hs] at ih
          have hmem : t.literal ∉ d.keywords := by
            rw [Std.TreeMap.mem_iff_isSome_getElem?, hnone]
            simp
          simpa [State.Describes, State.read, hs] using ih.ignored hk hmem hstrict
      | keyword hs hk hsome =>
          simp only [State.Describes, hs] at ih
          exact ⟨ts, rfl, ih, hk, hsome, by simp⟩
      | @closing word outer hs hk hblocks =>
          simp only [State.Describes, hs, hblocks, List.length_cons] at ih
          simpa [State.Describes, State.read, hs] using ih.closed hk
      | operand hs hk =>
          simp only [State.Describes, hs] at ih
          obtain ⟨before, name, equals, value, rfl, hbefore, hlast, hname, hequals, hvalue⟩ := ih
          exact ⟨before, name, equals, value ++ [t], by simp, hbefore, hlast, hname, hequals,
            List.forall_mem_append.mpr ⟨hvalue, List.forall_mem_singleton.mpr hk⟩⟩
      | terminator hs hk =>
          simp only [State.Describes, hs] at ih
          obtain ⟨before, name, equals, value, rfl, hbefore, hlast, hname, hequals, hvalue⟩ := ih
          simpa [State.Describes, State.read] using hbefore.assigned hlast hname hequals hvalue hk
      | head hs hk =>
          simp only [State.Describes, hs] at ih
          obtain ⟨before, rfl, hbefore, hword, hsome, htokens⟩ := ih
          exact ⟨before, by simp, hbefore, hword, hsome,
            List.forall_mem_append.mpr ⟨htokens, List.forall_mem_singleton.mpr hk⟩⟩
      | opening hs hk hfront =>
          simp only [State.Describes, hs] at ih
          obtain ⟨before, rfl, hbefore, hword, hsome, htokens⟩ := ih
          simpa [State.Describes] using hbefore.opened hword hsome htokens hfront hk

lemma compile_dispatches (d : Dialect) (ts : List Token) :
    (d.compile ts).dispatches = (d.compileFrom .initial ts).dispatches := rfl

/-- The tokens dispatched are those at which the compiler dispatches. -/
lemma mem_dispatches {i : Nat} {t : Token} :
    (i, t) ∈ (d.compile ts).dispatches ↔
      ∃ before after s, ts = before ++ t :: after ∧ before.length = i ∧ Attains d before s ∧
        s.Dispatches t := by
  rw [compile_dispatches, mem_compileFrom_dispatches]
  constructor
  · rintro ⟨before, after, s, hts, hread, hindex, hs⟩
    have hattains := attains_iff_read.mpr hread
    exact ⟨before, after, s, hts, hattains.index.symm.trans hindex, hattains, hs⟩
  · rintro ⟨before, after, s, hts, hindex, hattains, hs⟩
    exact ⟨before, after, s, hts, hattains.read, hattains.index.trans hindex, hs⟩

/-- **The tokens dispatched** are those that stand where a statement may start, and do not close a
block. -/
theorem mem_dispatches_iff {i : Nat} {t : Token} :
    (i, t) ∈ (d.compile ts).dispatches ↔
      ∃ before after depth, ts = before ++ t :: after ∧ before.length = i ∧
        d.AtStatement before depth ∧ (t.kind = .closeDelim → depth = 0) := by
  rw [mem_dispatches]
  constructor
  · rintro ⟨before, after, s, hts, hi, hs, hplace, hclosing⟩
    have hdescribes := hs.describes
    simp only [State.Describes, hplace] at hdescribes
    refine ⟨before, after, _, hts, hi, hdescribes, fun ht => ?_⟩
    rw [hclosing ht]
    rfl
  · rintro ⟨before, after, depth, hts, hi, hstatement, hclosing⟩
    obtain ⟨s, hs, hplace, hblocks⟩ := hstatement.attains
    refine ⟨before, after, s, hts, hi, hs, hplace, fun ht => ?_⟩
    rw [hclosing ht] at hblocks
    exact List.length_eq_zero_iff.mp hblocks

end Statements

/-! ## Runs -/

/-- The token at `k` is in the run of tokens behind `i` that ends in front of the first token of the
given kind. -/
def InRun (ts : List Token) (stop : Kind) (i k : Nat) : Prop :=
  i < k ∧ ∀ j t, i < j → j ≤ k → ts[j]? = some t → t.kind ≠ stop

section InRun

variable {d : Dialect} {ts : List Token} {i j : Nat} {t u : Token}

/-- Of two tokens dispatched in a run, the compiler comes from the first to the second, to a
statement, over the tokens in between. -/
lemma dispatched_between {stop : Kind} (ht : (i, t) ∈ (d.compile ts).dispatches)
    (hu : (j, u) ∈ (d.compile ts).dispatches) (hrun : InRun ts stop i j) :
    ∃ s s' between, s.Dispatches t ∧ (d.read s (t :: between)).next = .ok s' ∧
      s'.place = .statement ∧ ∀ v ∈ between, v.kind ≠ stop := by
  obtain ⟨hij, hrun⟩ := hrun
  obtain ⟨before, after, s, rfl, rfl, hs, hdispatches⟩ := mem_dispatches.mp ht
  obtain ⟨before', after', s', hts, rfl, hs', hplace, -⟩ := mem_dispatches.mp hu
  obtain ⟨between, rfl⟩ : ∃ between, before' = before ++ t :: between := by
    rcases List.append_eq_append_iff.mp hts with ⟨rest, rfl, hrest⟩ | ⟨rest, rfl, -⟩
    · cases rest with
      | nil => simp at hij
      | cons t' between =>
          obtain ⟨rfl, -⟩ := List.cons.inj hrest
          exact ⟨between, rfl⟩
    · simp only [List.length_append] at hij
      omega
  refine ⟨s, s', between, hdispatches, ?_, hplace, fun v hv => ?_⟩
  · have hread := hs'.read
    rw [Dialect.read_append] at hread
    simpa [Step.andThen, hs.read] using hread
  · obtain ⟨n, hn, hget⟩ := List.mem_iff_getElem.mp hv
    refine hrun (before.length + 1 + n) v (by omega) ?_ ?_
    · simp only [List.length_append, List.length_cons]
      omega
    · rw [hts, List.append_assoc, List.getElem?_append_right (by omega), List.cons_append,
        show before.length + 1 + n - before.length = n + 1 by omega, List.getElem?_cons_succ,
        List.getElem?_append_left hn, List.getElem?_eq_getElem hn, hget]

/-- Nothing is dispatched in the head of a keyword. -/
lemma not_inRun_head (ht : (i, t) ∈ (d.compile ts).dispatches) (hk : t.kind = .keyword)
    (hmem : t.literal ∈ d.keywords) (hu : (j, u) ∈ (d.compile ts).dispatches) :
    ¬ InRun ts .openDelim i j := by
  intro hrun
  obtain ⟨s, s', between, hs, hread, hplace, hhead⟩ := dispatched_between ht hu hrun
  obtain ⟨handler, hsome⟩ : ∃ handler, d.keywords[t.literal]? = some handler :=
    Option.isSome_iff_exists.mp (Std.TreeMap.mem_iff_isSome_getElem?.mp hmem)
  -- without an opening delimiter the compiler is still in the head
  rw [(Dialect.read_cons (Move.keyword hs.1 hk hsome).step.1 between).1] at hread
  obtain ⟨s₁, hreads, hplace₁, -⟩ := reads_head (d := d)
    (s := { s.read t with place := .head handler t s.index [] }) rfl hhead
  obtain rfl : s₁ = s' := Except.ok.inj (hreads.next.symm.trans hread)
  simp [hplace₁] at hplace

/-- Nothing is dispatched in the value of an assignment. -/
lemma not_inRun_value (ht : (i, t) ∈ (d.compile ts).dispatches) (hk : t.kind = .equals)
    (hu : (j, u) ∈ (d.compile ts).dispatches) : ¬ InRun ts .terminator i j := by
  intro hrun
  obtain ⟨s, s', between, hs, hread, hplace, hvalue⟩ := dispatched_between ht hu hrun
  -- an equals sign that is accepted leads into an expression
  obtain ⟨s₁, hnext, begun, hexpression⟩ :
      ∃ s₁, (d.step s t).next = .ok s₁ ∧ ∃ begun, s₁.place = .expression begun := by
    cases hnext : (d.step s t).next with
    | error e => simp [Dialect.read, Step.andThen, hnext] at hread
    | ok s₁ =>
        have hmove := Move.of_step hnext
        generalize (d.step s t).statements = out at hmove
        refine ⟨s₁, rfl, ?_⟩
        cases hmove with
        | equals _ _ _ _ => exact ⟨false, rfl⟩
        | type _ hkind | declare _ hkind | ignored _ hkind _ _ | keyword _ hkind _
        | closing _ hkind _ => simp [hk] at hkind
        | operand hexpression _ | terminator hexpression _ => simp [hs.1] at hexpression
        | head hhead _ | opening hhead _ _ => simp [hs.1] at hhead
  rw [(Dialect.read_cons hnext between).1] at hread
  obtain ⟨s₂, hreads, ⟨begun', hplace₂⟩, -⟩ := reads_expression (d := d) hexpression hvalue
  obtain rfl : s₂ = s' := Except.ok.inj (hreads.next.symm.trans hread)
  simp [hplace₂] at hplace

end InRun

/-- **Handlers are called exactly when and with what they should be.**  For every dialect and every
list of tokens, whether it compiles or not:

* the calls are, in order, those of the keywords with a handler that are dispatched and have an
  opening delimiter behind them, each with the tokens up to the first one;
* the positions of the tokens dispatched increase strictly;
* the tokens dispatched are those that stand where a statement may start and do not close a block;
* none of them stands in the head of a keyword or in the value of an assignment;
* no token stands in the heads of two keywords. -/
theorem handler_calls_exact (d : Dialect) (ts : List Token) :
    (d.compile ts).calls = (d.compile ts).dispatches.filterMap (d.callAt? ts) ∧
    (d.compile ts).dispatches.Pairwise (·.1 < ·.1) ∧
    (∀ i t, (i, t) ∈ (d.compile ts).dispatches ↔
      ∃ before after depth, ts = before ++ t :: after ∧ before.length = i ∧
        d.AtStatement before depth ∧ (t.kind = .closeDelim → depth = 0)) ∧
    (∀ i t j u, (i, t) ∈ (d.compile ts).dispatches → (j, u) ∈ (d.compile ts).dispatches →
      (t.kind = .keyword ∧ t.literal ∈ d.keywords → ¬ InRun ts .openDelim i j) ∧
      (t.kind = .equals → ¬ InRun ts .terminator i j)) ∧
    ∀ i t j u k, (i, t) ∈ (d.compile ts).dispatches → (j, u) ∈ (d.compile ts).dispatches →
      t.kind = .keyword ∧ t.literal ∈ d.keywords → u.kind = .keyword ∧ u.literal ∈ d.keywords →
      InRun ts .openDelim i k → InRun ts .openDelim j k → i = j := by
  refine ⟨?_, compileFrom_dispatches_sorted.2, fun i t => mem_dispatches_iff, ?_, ?_⟩
  · have hstart : ts.drop State.initial.index = ts := rfl
    exact compileFrom_calls hstart
  · intro i t j u ht hu
    exact ⟨fun hk => not_inRun_head ht hk.1 hk.2 hu, fun hk => not_inRun_value ht hk hu⟩
  · intro i t j u k ht hu hkt hku hik hjk
    -- a keyword between the other one and its opening delimiter would not be dispatched
    rcases Nat.lt_trichotomy i j with hij | hij | hij
    · exact absurd ⟨hij, fun n v hin hnj => hik.2 n v hin (hnj.trans hjk.1.le)⟩
        (not_inRun_head ht hkt.1 hkt.2 hu)
    · exact hij
    · exact absurd ⟨hij, fun n v hjn hni => hjk.2 n v hjn (hni.trans hik.1.le)⟩
        (not_inRun_head hu hku.1 hku.2 ht)

/-- A keyword in the head of a keyword, one in its body, and one in the value of an assignment.  The
first block is not closed, so the tokens do not compile. -/
theorem handler_calls_exact_unclosed :
    let d := Dialect.standard.withKeyword "if" fun _ => .ok []
    let word : Token := ⟨.keyword, "if", 0, 0⟩
    let x : Token := ⟨.identifier, "x", 0, 0⟩
    let equals : Token := ⟨.equals, "=", 0, 0⟩
    let one : Token := ⟨.number, "1", 0, 0⟩
    let opening : Token := ⟨.openDelim, "\x7b", 0, 0⟩
    let ts : List Token := [word, x, word, opening, word, one, opening, x, equals, word,
      ⟨.terminator, ";", 0, 0⟩, ⟨.closeDelim, "\x7d", 0, 0⟩]
    (d.compile ts).failure ≠ none ∧
    (d.compile ts).dispatches = [(0, word), (4, word), (7, x), (8, equals)] ∧
    (d.compile ts).calls = [(word.literal, [x, word]), (word.literal, [one])] ∧
    (InRun ts .openDelim 0 2 ∧ (2, word) ∉ (d.compile ts).dispatches) ∧
    (InRun ts .terminator 8 9 ∧ (9, word) ∉ (d.compile ts).dispatches) ∧
    ∀ k, InRun ts .openDelim 0 k → ¬ InRun ts .openDelim 4 k := by
  intro d word x equals one opening ts
  obtain ⟨hcalls, -, -, hruns, hdisjoint⟩ := handler_calls_exact d ts
  have hsites : (d.compile ts).dispatches = [(0, word), (4, word), (7, x), (8, equals)] := by
    decide +kernel
  have hfirst : (0, word) ∈ (d.compile ts).dispatches := by simp [hsites]
  have hsecond : (4, word) ∈ (d.compile ts).dispatches := by simp [hsites]
  have hequals : (8, equals) ∈ (d.compile ts).dispatches := by simp [hsites]
  have hword : word.kind = .keyword ∧ word.literal ∈ d.keywords := ⟨rfl, by decide +kernel⟩
  have hhead : InRun ts .openDelim 0 2 := by
    refine ⟨by decide, fun j t hlow hhigh hget => ?_⟩
    interval_cases j <;> · cases hget; decide
  have hvalue : InRun ts .terminator 8 9 := by
    refine ⟨by decide, fun j t hlow hhigh hget => ?_⟩
    interval_cases j
    cases hget
    decide
  refine ⟨by decide +kernel, hsites, hcalls.trans (by decide +kernel), ⟨hhead, fun hmem => ?_⟩,
    ⟨hvalue, fun hmem => ?_⟩, fun k hk hk' => ?_⟩
  · exact (hruns 0 word 2 word hfirst hmem).1 hword hhead
  · exact (hruns 8 equals 9 word hequals hmem).2 rfl hvalue
  · exact absurd (hdisjoint 0 word 4 word k hfirst hsecond hword hword hk hk') (by decide)

end Scriptlet
