import Mathlib
import Scriptlet.Proofs.ErrorPlaces

/-!
# Compiling further

A program that compiles can be extended: more tokens behind it are compiled from where the program
ends.  What is emitted already stays, also where an equals sign makes an assignment of the name that
the program ends in.  This file says what the rest has to know of the program.

The state behind a program is at a statement and has no open blocks.  What is left of it is the index,
the last token and the modes, and none of the three counts for more than it has to:

* **The index** is counted up and written into errors, and decides nothing.  `State.shift` moves a
  state along, and a step of the moved state is the moved step (`Dialect.step_later`).
* **The last token** is looked at by an equals sign, which wants to see a name and takes its literal
  (`Dialect.step_previous`).
* **The modes** decide what the markers are.

So `Dialect.continuation` can do with the kind and literal of the last token and the modes.

* **`compile_append`** — the listing of a longer list of tokens is that of the program followed by its
  continuation, and if the continuation fails, the error stands behind the program.
-/

namespace Scriptlet

open Compile

/-! ## Moving along -/

/-- The same error, so many tokens later. -/
def SyntaxError.shift (n : Nat) (e : SyntaxError) : SyntaxError :=
  { e with index := n + e.index }

namespace Compile

/-- The same place, so many tokens later: a head knows where its keyword stands. -/
def Place.shift (n : Nat) : Place → Place
  | .statement => .statement
  | .expression begun => .expression begun
  | .head handler keyword index tokens => .head handler keyword (n + index) tokens

/-- The same state, so many tokens later. -/
def State.shift (n : Nat) (s : State) : State :=
  { s with index := n + s.index, place := s.place.shift n }

namespace Step

/-- The second step is the first one, taken so many tokens later. -/
structure Later (n : Nat) (step later : Step) : Prop where
  statements : later.statements = step.statements
  next : later.next = match step.next with
    | .ok s => .ok (s.shift n)
    | .error e => .error (e.shift n)

variable {n : Nat} {s : State} {t : Token}

lemma Later.refuse (cause : SyntaxError.Cause) :
    Later n (.refuse s t cause) (.refuse (s.shift n) t cause) :=
  ⟨rfl, rfl⟩

lemma Later.assign : Later n (.assign s t) (.assign (s.shift n) t) := by
  have hprevious : (s.shift n).previous = s.previous := rfl
  unfold Step.assign
  rw [hprevious]
  split
  · exact ⟨rfl, rfl⟩
  · exact .refuse .noVariable

lemma Later.expression :
    Later n (.expression s t) (.expression (s.shift n) t) := by
  unfold Step.expression
  split <;> exact ⟨rfl, rfl⟩

lemma Later.head {handler : Handler} {keyword : Token} {index : Nat} {tokens : List Token} :
    Later n (.head s t handler keyword index tokens)
      (.head (s.shift n) t handler keyword (n + index) tokens) := by
  unfold Step.head
  split_ifs
  · cases handler tokens <;> exact ⟨rfl, rfl⟩
  · exact ⟨rfl, rfl⟩

end Step

end Compile

namespace Dialect

variable {n : Nat} {s : State} {t : Token} (d : Dialect)

lemma keyword_later : Step.Later n (d.keyword s t) (d.keyword (s.shift n) t) := by
  unfold keyword
  split
  · exact ⟨rfl, rfl⟩
  · split_ifs
    · exact .refuse _
    · exact ⟨rfl, rfl⟩

lemma start_later : Step.Later n (d.start s t) (d.start (s.shift n) t) := by
  unfold start
  split
  · exact ⟨rfl, rfl⟩
  · exact ⟨rfl, rfl⟩
  · exact .assign
  · exact d.keyword_later
  · exact .refuse _
  · exact .refuse _

lemma statement_later : Step.Later n (d.statement s t) (d.statement (s.shift n) t) := by
  have hblocks : (s.shift n).blocks = s.blocks := rfl
  unfold statement
  rw [hblocks]
  split
  · exact ⟨rfl, rfl⟩
  · exact ⟨d.start_later.statements, d.start_later.next⟩

/-- **A step does not depend on where it is taken.** -/
theorem step_later (n : Nat) (s : State) (t : Token) :
    Step.Later n (d.step s t) (d.step (s.shift n) t) := by
  have hplace : (s.shift n).place = s.place.shift n := rfl
  unfold step
  rw [hplace]
  cases s.place with
  | statement => exact d.statement_later
  | expression begun => exact .expression
  | head handler keyword index tokens => exact .head

/-- Nor does a stretch of tokens. -/
theorem read_later (n : Nat) (s : State) (ts : List Token) :
    Step.Later n (d.read s ts) (d.read (s.shift n) ts) := by
  induction ts generalizing s with
  | nil => exact ⟨rfl, rfl⟩
  | cons t ts ih =>
      obtain ⟨hstatements, hnext⟩ := d.step_later n s t
      simp only [read, Step.andThen]
      cases hstep : (d.step s t).next with
      | error e =>
          rw [hstep] at hnext
          simp only [hnext]
          exact ⟨hstatements, rfl⟩
      | ok s₁ =>
          rw [hstep] at hnext
          simp only [hnext]
          refine ⟨?_, (ih s₁).next⟩
          have hrest := (ih s₁).statements
          simp only [Step.statements, List.filterMap_append] at hstatements hrest ⊢
          rw [hstatements, hrest]

end Dialect

/-- The end of the input is the same error later on.  One that stands at the last token needs a
token to stand at. -/
lemma Compile.State.finish_shift {s : State} (n : Nat)
    (hbegun : s.place = .expression true → 0 < s.index) :
    (s.shift n).finish = s.finish.map (SyntaxError.shift n) := by
  obtain ⟨index, previous, modes, place, blocks⟩ := s
  cases place with
  | statement => cases blocks <;> rfl
  | expression begun =>
      cases begun with
      | false => rfl
      | true =>
          have hpos : 0 < index := hbegun rfl
          simp [finish, shift, Place.shift, SyntaxError.shift, lastToken, Nat.add_sub_assoc hpos]
  | head handler keyword index tokens => rfl

lemma Dialect.read_index {d : Dialect} {s s' : State} {ts : List Token}
    (h : (d.read s ts).next = .ok s') : s'.index = s.index + ts.length := by
  induction ts generalizing s with
  | nil =>
      obtain rfl : s = s' := by simpa [Dialect.read] using h
      rfl
  | cons t ts ih =>
      cases hstep : (d.step s t).next with
      | error e => simp [Dialect.read, Step.andThen, hstep] at h
      | ok s₁ =>
          rw [(Dialect.read_cons hstep ts).1] at h
          rw [ih h, step_index hstep, List.length_cons]
          omega

/-- **A compilation does not depend on where its tokens stand**, except that its error names the
place. -/
theorem Dialect.compileFrom_shift (d : Dialect) (n : Nat) {s : State} (hs : s.place = .statement)
    (ts : List Token) :
    (d.compileFrom (s.shift n) ts).listing
      = (d.compileFrom s ts).listing.mapError (SyntaxError.shift n) := by
  obtain ⟨hstatements, hnext⟩ := d.read_later n s ts
  rw [compileFrom_eq_read, compileFrom_eq_read, Step.compilation_listing, Step.compilation_listing,
    hnext, hstatements]
  cases hread : (d.read s ts).next with
  | error e => rfl
  | ok s' =>
      have hbegun : s'.place = .expression true → 0 < s'.index := by
        intro hplace
        cases ts with
        | nil =>
            obtain rfl : s = s' := by simpa [Dialect.read] using hread
            simp [hs] at hplace
        | cons t ts =>
            rw [read_index hread, List.length_cons]
            omega
      simp only [State.finish_shift n hbegun]
      cases s'.finish <;> rfl

/-! ## Looking back -/

section Previous

variable {s : State} {last : Option Token} {t : Token}
  (hlast : last.map (fun u => (u.kind, u.literal)) = s.previous.map fun u => (u.kind, u.literal))

include hlast

lemma Compile.Step.assign_previous :
    Step.assign { s with previous := last } t = Step.assign s t := by
  obtain ⟨index, previous, modes, place, blocks⟩ := s
  cases last with
  | none =>
      cases previous with
      | none => rfl
      | some u => simp at hlast
  | some v =>
      cases previous with
      | none => simp at hlast
      | some u =>
          obtain ⟨kind, literal, line, col⟩ := u
          obtain ⟨kind', literal', line', col'⟩ := v
          simp only [Option.map_some, Option.some.injEq, Prod.mk.injEq] at hlast
          obtain ⟨rfl, rfl⟩ := hlast
          cases kind' <;> rfl

/-- **A step sees no more of the token before** than its kind and its literal. -/
theorem Dialect.step_previous (d : Dialect) :
    d.step { s with previous := last } t = d.step s t := by
  have hstart : d.start { s with previous := last } t = d.start s t := by
    unfold start
    split
    · rfl
    · rfl
    · exact Step.assign_previous hlast
    · rfl
    · rfl
    · rfl
  obtain ⟨index, previous, modes, place, blocks⟩ := s
  cases place with
  | statement =>
      dsimp only [step, statement, State.read] at hstart ⊢
      rw [hstart]
  | expression begun => rfl
  | head handler keyword index tokens => rfl

/-- Nor does a compilation that might end at once. -/
lemma Dialect.compileFrom_previous (d : Dialect) (hs : s.place = .statement) (hblocks : s.blocks = [])
    (ts : List Token) : d.compileFrom { s with previous := last } ts = d.compileFrom s ts := by
  cases ts with
  | nil => simp [compileFrom, State.finish, hs, hblocks]
  | cons t ts => rw [compileFrom, compileFrom, d.step_previous hlast]

end Previous

/-! ## Compiling further -/

/-- **What more tokens compile to** behind a program of which only the last token, by kind and
literal, and the modes at the end are known.  The indices of errors are counted from there. -/
def Dialect.continuation (d : Dialect) (last : Option (Kind × Text)) (m : Modes)
    (ts : List Token) : Except SyntaxError (List Statement) :=
  (d.compileFrom { previous := last.map fun l => ⟨l.1, l.2, 0, 0⟩, modes := m } ts).listing

lemma Reads.listing_append {d : Dialect} {a : List Token} {out : List Statement} {s : State}
    (h : Reads d .initial a out s) (b : List Token) :
    (d.compile (a ++ b)).listing = (d.compileFrom s b).listing.map (seedMarkers ++ out ++ ·) := by
  rw [Dialect.compile, Dialect.compileFrom_eq_read, Dialect.read_append,
    Step.compilation_andThen _ h.next, ← Dialect.compileFrom_eq_read, Compilation.prepend_listing,
    Compilation.prepend_listing, Modes.opening_statements]
  have hout : (d.read .initial a).events.filterMap Event.statement? = out := h.statements
  rw [hout]
  cases (d.compileFrom s b).listing <;> simp [Except.map]

/-- **Compilation is incremental.**  If some tokens compile to a listing, then with more tokens
behind them they compile to that listing and more statements behind it, or fail at an index not below
their number.  Which of the two it is, the statements, and the error counted from there are those of
`Dialect.continuation`: of the tokens before, only the kind and literal of the last one matter, and
the type and operator in force at the end. -/
theorem compile_append (d : Dialect) (a : List Token) (listing : List Statement)
    (h : (d.compile a).listing = .ok listing) :
    ∃ p, Derives d a p ∧ ∀ b, (d.compile (a ++ b)).listing =
      match d.continuation (a.getLast?.map fun t => (t.kind, t.literal)) (p.modes .initial) b with
      | .ok more => .ok (listing ++ more)
      | .error e => .error { e with index := a.length + e.index } := by
  obtain ⟨p, hp, rfl⟩ := listing_eq_ok_iff.mp h
  obtain ⟨s, hreads, hplace, hmodes, hblocks⟩ := hp.reads (s := .initial) rfl
  have hattains : Attains d a s := attains_iff_read.mpr hreads.next
  refine ⟨p, hp, fun b => ?_⟩
  let last := a.getLast?.map fun t => (t.kind, t.literal)
  let fresh : State := { previous := last.map fun l => ⟨l.1, l.2, 0, 0⟩, modes := p.modes .initial }
  have hlast : fresh.previous.map (fun u => (u.kind, u.literal))
      = s.previous.map fun u => (u.kind, u.literal) := by
    rw [hattains.previous]
    cases hlast : a.getLast? <;> simp [fresh, last, hlast]
  have hstate : { s with previous := fresh.previous } = fresh.shift a.length := by
    simp only [fresh, State.shift, Place.shift, hattains.index, hplace, hmodes, hblocks,
      State.initial, Nat.add_zero]
  have hcontinued : (d.compileFrom s b).listing
      = (d.continuation last (p.modes .initial) b).mapError (SyntaxError.shift a.length) := by
    rw [← d.compileFrom_previous hlast hplace hblocks, hstate, d.compileFrom_shift _ rfl]
    rfl
  rw [hreads.listing_append, hcontinued]
  cases d.continuation last (p.modes .initial) b <;> rfl

/-- Two programs that end in the same name and in the same modes, one of them behind another type.
Whatever follows, it adds the same statements to both, also if it makes an assignment of the name. -/
theorem compile_append_same_ending :
    let a : List Token := [⟨.identifier, "x", 1, 1⟩]
    let a' : List Token := [⟨.type, "bool", 1, 1⟩, ⟨.identifier, "y", 1, 6⟩, ⟨.type, "int", 2, 1⟩,
      ⟨.identifier, "x", 2, 5⟩]
    let listing : List Statement := seedMarkers ++ [.declare "x"]
    let listing' : List Statement :=
      seedMarkers ++ [.type "bool", .declare "y", .type "int", .declare "x"]
    (Dialect.standard.compile a).listing = .ok listing ∧
    (Dialect.standard.compile a').listing = .ok listing' ∧
    ∀ b more, (Dialect.standard.compile (a ++ b)).listing = .ok (listing ++ more) ↔
      (Dialect.standard.compile (a' ++ b)).listing = .ok (listing' ++ more) := by
  intro a a' listing listing'
  have h : (Dialect.standard.compile a).listing = .ok listing := by decide +kernel
  have h' : (Dialect.standard.compile a').listing = .ok listing' := by decide +kernel
  refine ⟨h, h', fun b more => ?_⟩
  obtain ⟨p, hp, happend⟩ := compile_append .standard a listing h
  obtain ⟨p', hp', happend'⟩ := compile_append .standard a' listing' h'
  have hmodes : p.modes .initial = .initial := by
    rw [hp.unique (.declare rfl .done)]
    rfl
  have hmodes' : p'.modes .initial = .initial := by
    rw [hp'.unique (.type rfl (.declare rfl (.type rfl (.declare rfl .done))))]
    rfl
  have hlast : a'.getLast?.map (fun t => (t.kind, t.literal))
      = a.getLast?.map fun t => (t.kind, t.literal) := rfl
  rw [happend, happend', hmodes, hmodes', hlast]
  cases Dialect.standard.continuation _ _ b <;> simp

end Scriptlet
