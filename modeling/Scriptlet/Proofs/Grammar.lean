import Mathlib
import Scriptlet.Compile.Basic

/-!
# The grammar of programs

The compiler reads tokens with a state machine.  What it reads is a language with a grammar, and
this file states the grammar on its own, without the machine.

A program is a sequence of items, and an item is one of

* a type word,
* a name,
* a name, an equals sign, an expression without a terminator in it, and a terminator,
* a keyword without a handler, if the dialect passes over those,
* a keyword with a handler, a head that the handler accepts and that has no opening delimiter in
  it, an opening delimiter, a program, and a closing delimiter.

`Derives d ts p` says that the tokens `ts` are the program `p`.  `Program.code` is what a program
means to the compiler: the statements of its items one after the other, with the modes threaded
from left to right, through the bodies of blocks as well.

* **`Derives.unique`** — a list of tokens is at most one program.  The proof compares two programs
  that stand in front of two rests, `Derives.unique_of_append`; a rest may be empty or start with a
  closing delimiter (`Stops`), and no item starts with one.
-/

namespace Scriptlet

/-- A program with the tokens it is made of: a sequence of items, each in front of the rest. -/
inductive Program where
  | done
  | type (word : Token) (rest : Program)
  | declare (name : Token) (rest : Program)
  | assign (name equals : Token) (value : List Token) (terminator : Token) (rest : Program)
  /-- A keyword that is passed over. -/
  | ignored (word : Token) (rest : Program)
  /-- A keyword with its head and body; `front` is what the handler makes of the head. -/
  | block (word : Token) (head : List Token) (opening : Token) (front : List Statement)
      (body : Program) (closing : Token) (rest : Program)

/-- **The grammar.**  The tokens are the program, in the given dialect. -/
inductive Derives (d : Dialect) : List Token → Program → Prop where
  | done : Derives d [] .done
  | type {word : Token} {ts : List Token} {rest : Program} :
      word.kind = .type → Derives d ts rest → Derives d (word :: ts) (.type word rest)
  | declare {name : Token} {ts : List Token} {rest : Program} :
      name.kind = .identifier → Derives d ts rest → Derives d (name :: ts) (.declare name rest)
  | assign {name equals terminator : Token} {value ts : List Token} {rest : Program} :
      name.kind = .identifier → equals.kind = .equals →
      (∀ t ∈ value, t.kind ≠ .terminator) → terminator.kind = .terminator → Derives d ts rest →
      Derives d (name :: equals :: (value ++ terminator :: ts))
        (.assign name equals value terminator rest)
  | ignored {word : Token} {ts : List Token} {rest : Program} :
      word.kind = .keyword → d.keywords[word.literal]? = none → d.strict = false →
      Derives d ts rest → Derives d (word :: ts) (.ignored word rest)
  | block {word opening closing : Token} {head inner ts : List Token} {handler : Handler}
      {front : List Statement} {body rest : Program} :
      word.kind = .keyword → d.keywords[word.literal]? = some handler →
      (∀ t ∈ head, t.kind ≠ .openDelim) → handler head = .ok front →
      opening.kind = .openDelim → Derives d inner body → closing.kind = .closeDelim →
      Derives d ts rest →
      Derives d (word :: (head ++ opening :: (inner ++ closing :: ts)))
        (.block word head opening front body closing rest)

/-! ## The code of a program -/

namespace Modes

/-- The marker of a type, unless it is in force. -/
def typeMarker (m : Modes) (type : Text) : List Statement :=
  if type = m.type then [] else [.type type]

/-- The marker of an operator, unless it is in force. -/
def operatorMarker (m : Modes) (operator : Text) : List Statement :=
  if operator = m.operator then [] else [.operator operator]

/-- The modes in which an expression starts: `bool` keeps the operator in force. -/
def restart (m : Modes) : Modes :=
  if m.type = "bool" then m else { m with operator := "+" }

/-- The markers of `Modes.restart`. -/
def restartMarker (m : Modes) : List Statement :=
  if m.type = "bool" then [] else m.operatorMarker "+"

lemma mem_typeMarker {m : Modes} {type : Text} {s : Statement} (h : s ∈ m.typeMarker type) :
    s = .type type := by
  unfold typeMarker at h
  split_ifs at h
  · simp at h
  · exact List.mem_singleton.mp h

lemma mem_operatorMarker {m : Modes} {operator : Text} {s : Statement}
    (h : s ∈ m.operatorMarker operator) : s = .operator operator := by
  unfold operatorMarker at h
  split_ifs at h
  · simp at h
  · exact List.mem_singleton.mp h

lemma mem_restartMarker {m : Modes} {s : Statement} (h : s ∈ m.restartMarker) :
    s = .operator "+" := by
  unfold restartMarker at h
  split_ifs at h
  · simp at h
  · exact mem_operatorMarker h

end Modes

/-- The statements of the tokens of an expression: one for each operand, and an operator where it
changes. -/
def expressionCode (m : Modes) : List Token → List Statement
  | [] => []
  | t :: rest =>
    match t.kind with
    | .number => .push t.literal :: expressionCode m rest
    | .identifier => .get t.literal :: expressionCode m rest
    | .binaryOperator =>
      m.operatorMarker t.literal ++ expressionCode { m with operator := t.literal } rest
    | _ => expressionCode m rest

/-- Every statement of an expression comes from one of its tokens. -/
lemma mem_expressionCode {m : Modes} {value : List Token} {s : Statement}
    (h : s ∈ expressionCode m value) :
    ∃ t ∈ value, s = .push t.literal ∨ s = .get t.literal ∨ s = .operator t.literal := by
  induction value generalizing m with
  | nil => simp [expressionCode] at h
  | cons t value ih =>
      have hrest {m : Modes} (h : s ∈ expressionCode m value) :
          ∃ u ∈ t :: value, s = .push u.literal ∨ s = .get u.literal ∨ s = .operator u.literal := by
        obtain ⟨u, hu, hs⟩ := ih h
        exact ⟨u, List.mem_cons_of_mem _ hu, hs⟩
      rw [expressionCode] at h
      split at h
      · rcases List.mem_cons.mp h with rfl | h
        · exact ⟨t, by simp, .inl rfl⟩
        · exact hrest h
      · rcases List.mem_cons.mp h with rfl | h
        · exact ⟨t, by simp, .inr (.inl rfl)⟩
        · exact hrest h
      · rcases List.mem_append.mp h with h | h
        · exact ⟨t, by simp, .inr (.inr (Modes.mem_operatorMarker h))⟩
        · exact hrest h
      · exact hrest h

/-- The modes behind an expression: its last operator is in force. -/
def expressionModes (m : Modes) : List Token → Modes
  | [] => m
  | t :: rest =>
    if t.kind = .binaryOperator then expressionModes { m with operator := t.literal } rest
    else expressionModes m rest

namespace Program

/-- The modes behind a program that starts in the given ones. -/
def modes (m : Modes) : Program → Modes
  | done => m
  | type word rest => rest.modes { m with type := word.literal }
  | declare _ rest => rest.modes m
  | assign _ _ value _ rest => rest.modes (expressionModes m.restart value)
  | ignored _ rest => rest.modes m
  | block _ _ _ _ body _ rest => rest.modes (body.modes m)

/-- The statements of a program that starts in the given modes. -/
def code (m : Modes) : Program → List Statement
  | done => []
  | type word rest => m.typeMarker word.literal ++ rest.code { m with type := word.literal }
  | declare name rest => .declare name.literal :: rest.code m
  | assign name _ value _ rest =>
    .declare name.literal :: .load name.literal ::
      .clear (if m.type = "int" ∨ m.type = "float" then "0" else "false") ::
      (m.restartMarker ++ (expressionCode m.restart value ++
        rest.code (expressionModes m.restart value)))
  | ignored _ rest => rest.code m
  | block _ _ _ front body _ rest =>
    front ++ (if front.any Statement.opensBlock then [] else [.beginBlock]) ++
      (body.code m ++ .endBlock :: rest.code (body.modes m))

end Program

/-- The markers at the head of every listing. -/
def seedMarkers : List Statement :=
  [.scope "global", .type "int", .operator "+"]

/-! ## A list of tokens is at most one program -/

/-- Where a program can end: at the end of the tokens, or in front of a closing delimiter. -/
def Stops (ts : List Token) : Prop :=
  ∀ t ∈ ts.head?, t.kind = .closeDelim

lemma stops_nil : Stops [] := by
  simp [Stops]

lemma stops_closing {t : Token} (h : t.kind = .closeDelim) (ts : List Token) :
    Stops (t :: ts) := by
  simpa [Stops] using h

/-- The kinds of the tokens that an item starts with. -/
def Kind.startsItem : Kind → Bool
  | type | identifier | keyword => true
  | _ => false

lemma Derives.head_kind {d : Dialect} {ts : List Token} {p : Program} (h : Derives d ts p) :
    ∀ t ∈ ts.head?, t.kind.startsItem := by
  intro t ht
  cases h <;> simp_all [Kind.startsItem]

/-- A rest at which a program can end starts no item. -/
lemma Stops.not_startsItem {t : Token} {ts r : List Token} (hr : Stops r) (h : t :: ts = r) :
    ¬ t.kind.startsItem := by
  have ht : t.kind = .closeDelim := hr t (by simp [← h])
  simp [ht, Kind.startsItem]

/-- What a program and a rest together start with is the start of an item or a closing
delimiter, and so never an equals sign. -/
lemma Derives.append_head_ne_equals {d : Dialect} {ts r us : List Token} {p : Program} {t : Token}
    (h : Derives d ts p) (hr : Stops r) (heq : ts ++ r = t :: us) : t.kind ≠ .equals := by
  intro ht
  cases ts with
  | nil =>
      simp only [List.nil_append] at heq
      have hclose : t.kind = .closeDelim := hr t (by simp [heq])
      simp [hclose] at ht
  | cons u ts =>
      simp only [List.cons_append, List.cons.injEq] at heq
      have hstart := h.head_kind u (by simp)
      simp [heq.1, ht, Kind.startsItem] at hstart

/-- In front of a rest at which a program can end there is only the empty program, if the tokens
are such a rest already. -/
lemma Derives.eq_done {d : Dialect} {ts r s : List Token} {p : Program} (h : Derives d ts p)
    (hr : Stops r) (heq : ts ++ s = r) : p = .done ∧ s = r := by
  cases ts with
  | nil =>
      cases h
      exact ⟨rfl, by simpa using heq⟩
  | cons t ts =>
      exact absurd (h.head_kind t (by simp)) (hr.not_startsItem heq)

lemma kind_eq_of_cons_eq {t u : Token} {ts us : List Token} (h : t :: ts = u :: us) :
    t.kind = u.kind := by
  rw [(List.cons.inj h).1]

/-- A run that ends at the first token of a kind is determined by the tokens. -/
lemma run_unique {k : Kind} {a b x y : List Token} {t u : Token} (ha : ∀ v ∈ a, v.kind ≠ k)
    (hb : ∀ v ∈ b, v.kind ≠ k) (ht : t.kind = k) (hu : u.kind = k)
    (h : a ++ t :: x = b ++ u :: y) : a = b ∧ t = u ∧ x = y := by
  induction a generalizing b with
  | nil =>
      cases b with
      | nil => simpa using h
      | cons v b => exact absurd (kind_eq_of_cons_eq h ▸ ht) (hb v (by simp))
  | cons v a ih =>
      cases b with
      | nil => exact absurd (kind_eq_of_cons_eq h ▸ hu) (ha v (by simp))
      | cons w b =>
          simp only [List.cons_append, List.cons.injEq] at h
          obtain ⟨hab, htu, hxy⟩ := ih (fun z hz => ha z (by simp [hz]))
            (fun z hz => hb z (by simp [hz])) h.2
          exact ⟨by rw [h.1, hab], htu, hxy⟩

/-- Two programs in front of rests at which a program can end are the same if the tokens are, and
so are the rests. -/
theorem Derives.unique_of_append {d : Dialect} {ts us r s : List Token} {p q : Program}
    (hp : Derives d ts p) (hq : Derives d us q) (hr : Stops r) (hs : Stops s)
    (h : ts ++ r = us ++ s) : p = q ∧ r = s := by
  -- item by item; items that start with the same kind of token are told apart by the token behind
  -- a name, and by the table of keywords
  induction hp generalizing us s q r with
  | done =>
      obtain ⟨hq, hrs⟩ := hq.eq_done hr h.symm
      exact ⟨hq.symm, hrs.symm⟩
  | @type word ts rest hk hrest ih =>
      cases hq with
      | done => exact absurd (by simp [hk, Kind.startsItem]) (hs.not_startsItem h)
      | type hk' hrest' =>
          simp only [List.cons_append, List.cons.injEq] at h
          obtain ⟨hpq, hrs⟩ := ih hrest' hr hs h.2
          exact ⟨by rw [h.1, hpq], hrs⟩
      | declare hk' => exact absurd (kind_eq_of_cons_eq h) (by simp [hk, hk'])
      | assign hk' => exact absurd (kind_eq_of_cons_eq h) (by simp [hk, hk'])
      | ignored hk' => exact absurd (kind_eq_of_cons_eq h) (by simp [hk, hk'])
      | block hk' => exact absurd (kind_eq_of_cons_eq h) (by simp [hk, hk'])
  | @declare name ts rest hk hrest ih =>
      cases hq with
      | done => exact absurd (by simp [hk, Kind.startsItem]) (hs.not_startsItem h)
      | type hk' => exact absurd (kind_eq_of_cons_eq h) (by simp [hk, hk'])
      | declare hk' hrest' =>
          simp only [List.cons_append, List.cons.injEq] at h
          obtain ⟨hpq, hrs⟩ := ih hrest' hr hs h.2
          exact ⟨by rw [h.1, hpq], hrs⟩
      | assign hk' he =>
          simp only [List.cons_append, List.cons.injEq] at h
          exact absurd he (hrest.append_head_ne_equals hr h.2)
      | ignored hk' => exact absurd (kind_eq_of_cons_eq h) (by simp [hk, hk'])
      | block hk' => exact absurd (kind_eq_of_cons_eq h) (by simp [hk, hk'])
  | @assign name equals terminator value ts rest hk he hv ht hrest ih =>
      cases hq with
      | done => exact absurd (by simp [hk, Kind.startsItem]) (hs.not_startsItem h)
      | type hk' => exact absurd (kind_eq_of_cons_eq h) (by simp [hk, hk'])
      | declare hk' hrest' =>
          simp only [List.cons_append, List.cons.injEq] at h
          exact absurd he (hrest'.append_head_ne_equals hs h.2.symm)
      | assign hk' he' hv' ht' hrest' =>
          simp only [List.cons_append, List.append_assoc, List.cons.injEq] at h
          obtain ⟨hname, hequals, h⟩ := h
          obtain ⟨hvalue, hterm, h⟩ := run_unique hv hv' ht ht' h
          obtain ⟨hpq, hrs⟩ := ih hrest' hr hs h
          exact ⟨by rw [hname, hequals, hvalue, hterm, hpq], hrs⟩
      | ignored hk' => exact absurd (kind_eq_of_cons_eq h) (by simp [hk, hk'])
      | block hk' => exact absurd (kind_eq_of_cons_eq h) (by simp [hk, hk'])
  | @ignored word ts rest hk hnone hstrict hrest ih =>
      cases hq with
      | done => exact absurd (by simp [hk, Kind.startsItem]) (hs.not_startsItem h)
      | type hk' => exact absurd (kind_eq_of_cons_eq h) (by simp [hk, hk'])
      | declare hk' => exact absurd (kind_eq_of_cons_eq h) (by simp [hk, hk'])
      | assign hk' => exact absurd (kind_eq_of_cons_eq h) (by simp [hk, hk'])
      | ignored hk' _ _ hrest' =>
          simp only [List.cons_append, List.cons.injEq] at h
          obtain ⟨hpq, hrs⟩ := ih hrest' hr hs h.2
          exact ⟨by rw [h.1, hpq], hrs⟩
      | block hk' hsome => rw [(List.cons.inj h).1, hsome] at hnone; simp at hnone
  | @block word opening closing head inner ts handler front body rest hk hsome hhead hfront ho
      hbody hc hrest ihbody ihrest =>
      cases hq with
      | done => exact absurd (by simp [hk, Kind.startsItem]) (hs.not_startsItem h)
      | type hk' => exact absurd (kind_eq_of_cons_eq h) (by simp [hk, hk'])
      | declare hk' => exact absurd (kind_eq_of_cons_eq h) (by simp [hk, hk'])
      | assign hk' => exact absurd (kind_eq_of_cons_eq h) (by simp [hk, hk'])
      | ignored hk' hnone => rw [(List.cons.inj h).1, hnone] at hsome; simp at hsome
      | @block _ opening' closing' _ inner' ts' _ _ _ _ hk' hsome' hhead' hfront' ho' hbody' hc'
          hrest' =>
          simp only [List.cons_append, List.append_assoc, List.cons.injEq] at h
          obtain ⟨hword, h⟩ := h
          obtain ⟨rfl, hopening, h⟩ := run_unique hhead hhead' ho ho' h
          obtain ⟨hbodies, h⟩ := ihbody hbody' (stops_closing hc _) (stops_closing hc' _) h
          obtain ⟨hclosing, h⟩ := List.cons.inj h
          obtain ⟨hpq, hrs⟩ := ihrest hrest' hr hs h
          -- one handler on one head gives one front
          rw [hword, hsome', Option.some.injEq] at hsome
          rw [← hsome, hfront', Except.ok.injEq] at hfront
          exact ⟨by rw [hword, hopening, hfront, hbodies, hclosing, hpq], hrs⟩

/-- **The grammar is unambiguous**: a list of tokens is at most one program. -/
theorem Derives.unique {d : Dialect} {ts : List Token} {p q : Program} (hp : Derives d ts p)
    (hq : Derives d ts q) : p = q :=
  (hp.unique_of_append hq stops_nil stops_nil rfl).1

end Scriptlet
