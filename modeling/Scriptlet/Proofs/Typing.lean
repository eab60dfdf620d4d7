import Mathlib
import Scriptlet.Proofs.Safety

/-!
# Values keep their types

A value names its type and has a field for each of the three types, and the machine names the type
that declarations get.  It reads the field of the type that is named, and does not check twice what
it has read once.  This rests on an invariant that no single statement shows: whatever was run
before, no other types are named, the fields of the types not named are zero, and what is once
declared with a type stays with it.

* `Value.combine_type`, `Value.read_type`, `Value.convert_type` — the types of results are the
  types that were asked for.
* **`Leads.read?_type`** — a cell has one type for all time, by `Acts.read?_type` for each thing
  that a statement can do.
* `Machine.combined?` — the two values that a statement combines, which have one type
  (`combined?_type`).
* `Reachable.unknownType` — an unknown type is noticed at its marker and never later.
* `Sound.occursIn_dump` — a dump has `<invalid>` in it only where a scope or a variable is named so.
* **`reachable_values_typed`** — all of it for the machines that any runs lead to.
-/

namespace Scriptlet

/-! ## The types of results -/

namespace Value

lemma zeroOf_type {type : Text} {v : Value} (h : zeroOf type = .ok v) : v.type = type := by
  obtain ⟨t, rfl, rfl⟩ := zeroOf_eq_ok h
  rfl

lemma zeroOf_eq_error {type : Text} {fault : Fault} (h : zeroOf type = .error fault) :
    fault = .unknownType type := by
  unfold zeroOf at h
  split at h
  · simp at h
  · exact (Except.error.inj h).symm

lemma readAs?_type {t : ValueType} {literal : Text} {v : Value} (h : readAs? t literal = some v) :
    v.type = t.name := by
  cases t <;>
    · obtain ⟨_, _, rfl⟩ := Option.map_eq_some_iff.mp h
      rfl

lemma read_type {type literal : Text} {v : Value} (h : read type literal = .ok v) :
    v.type = type := by
  simp only [read] at h
  split at h
  · simp at h
  · next t ht =>
      split at h
      · next w hw =>
          rw [← Except.ok.inj h, readAs?_type hw]
          exact ValueType.name_of_ofName? ht
      · simp at h

lemma convert_type {v w : Value} {type : Text} (h : v.convert type = .ok w) : w.type = type := by
  unfold convert at h
  split_ifs at h with hsame hwidens
  · rw [← Except.ok.inj h]
    exact hsame
  · rw [← Except.ok.inj h, hwidens.2]
    rfl

lemma result?_type {op : Operator} {acc operand w : Value}
    (h : result? op acc operand = some (.ok w)) : w.type = acc.type := by
  -- the result is of the type that the accumulated value names
  have hresult (t : ValueType) (hacc : ValueType.ofName? acc.type = some t) (hw : w.type = t.name) :
      w.type = acc.type := hw.trans (ValueType.name_of_ofName? hacc)
  unfold result? at h
  split at h <;> (try split_ifs at h) <;>
    simp only [Option.some.injEq, Except.ok.injEq, reduceCtorEq] at h <;>
    (subst h; exact hresult _ ‹_› rfl)

lemma combine_type {op : Text} {acc operand w : Value} (h : combine op acc operand = .ok w) :
    w.type = acc.type := by
  simp only [combine] at h
  split at h
  · next result hresult =>
      obtain ⟨operator, _, hop⟩ := Option.bind_eq_some_iff.mp hresult
      rw [h] at hop
      exact result?_type hop
  · simp at h

end Value

/-! ## The text of a value

Numbers are written with few characters, and none of them opens a remark in angle brackets. -/

/-- The byte of an opening angle bracket. -/
def bracket : UInt8 := 60

/-- The characters that numbers are written with. -/
def numeralChars : List Char :=
  ['0', '1', '2', '3', '4', '5', '6', '7', '8', '9', 'a', 'b', 'c', 'd', 'e', 'f', '*', '+', '-',
    '.']

/-- Only these characters occur. -/
def IsNumeral (cs : List Char) : Prop :=
  ∀ c ∈ cs, c ∈ numeralChars

namespace IsNumeral

lemma cons {c : Char} {cs : List Char} (hc : c ∈ numeralChars) (h : IsNumeral cs) :
    IsNumeral (c :: cs) :=
  List.forall_mem_cons.mpr ⟨hc, h⟩

lemma append {cs ds : List Char} (hc : IsNumeral cs) (hd : IsNumeral ds) :
    IsNumeral (cs ++ ds) :=
  List.forall_mem_append.mpr ⟨hc, hd⟩

lemma digitChar (n : Nat) : n.digitChar ∈ numeralChars := by
  rcases Nat.lt_or_ge n 16 with hlt | hge
  · have hall : ∀ n < 16, Nat.digitChar n ∈ numeralChars := by decide
    exact hall n hlt
  · have hstar : n.digitChar = '*' := by
      unfold Nat.digitChar
      repeat rw [if_neg (by omega)]
    rw [hstar]
    decide

lemma digitText (digits : List Nat) : IsNumeral (Decimal.digitText digits) := by
  intro c hc
  obtain ⟨n, _, rfl⟩ := List.mem_map.mp hc
  exact digitChar n

lemma fraction (digits : List Nat) : IsNumeral (Decimal.fraction digits) := by
  simp only [Decimal.fraction]
  split
  · simp [IsNumeral]
  · exact .cons (by decide) (digitText _)

lemma toChars (d : Decimal) : IsNumeral d.toChars := by
  have hplain : IsNumeral d.plain := by
    simp only [Decimal.plain]
    split
    · exact .cons (by decide) (fraction _)
    · exact (digitText _).append (fraction _)
  have hexponent : IsNumeral (Decimal.exponentText d.exponent) := by
    simp only [Decimal.exponentText]
    split <;> exact .cons (by decide) (digitText _)
  simp only [Decimal.toChars]
  split
  · exact hplain
  · exact ((digitText _).append (fraction _)).append (.cons (by decide) hexponent)

lemma magnitude (bits : Nat) : IsNumeral (Decimal.magnitude bits) := by
  simp only [Decimal.magnitude]
  split
  · exact .cons (by decide) (by simp [IsNumeral])
  · exact toChars _

lemma toDigits (n : Nat) : IsNumeral (Nat.toDigits 10 n) := by
  intro c hc
  have hdigit : c.isDigit = true := Nat.isDigit_of_mem_toDigits (by decide) (by decide) hc
  simp only [Char.isDigit, ge_iff_le, Bool.and_eq_true, decide_eq_true_eq] at hdigit
  have hlow : 48 ≤ c.toNat := hdigit.1
  have hhigh : c.toNat ≤ 57 := hdigit.2
  rw [← Char.ofNat_toNat c]
  interval_cases c.toNat <;> decide

lemma toString_int (n : Int) : IsNumeral (toString n).toList := by
  cases n with
  | ofNat n =>
      have htext : toString (Int.ofNat n) = toString n := rfl
      rw [htext, Nat.toString_eq_ofList_toDigits, String.toList_ofList]
      exact toDigits n
  | negSucc n =>
      have htext : toString (Int.negSucc n) = "-" ++ toString (n + 1) := rfl
      have hdigits : (toString (n + 1)).toList = Nat.toDigits 10 (n + 1) := by
        rw [Nat.toString_eq_ofList_toDigits, String.toList_ofList]
      rw [htext, String.toList_append, hdigits]
      exact .append (.cons (by decide) (by simp [IsNumeral])) (toDigits _)

lemma no_bracket {cs : List Char} (h : IsNumeral cs) : bracket ∉ (Text.ofChars cs).bytes := by
  intro hbracket
  obtain ⟨c, hc, hbyte⟩ := List.mem_flatMap.mp hbracket
  have hnone : ∀ c ∈ numeralChars, bracket ∉ String.utf8EncodeChar c := by
    simp [numeralChars, bracket, String.utf8EncodeChar]
  exact hnone c (h c hc) hbyte

end IsNumeral

lemma Decimal.render_no_bracket (f : Float) : bracket ∉ (Decimal.render f).bytes := by
  simp only [Decimal.render]
  split_ifs
  · decide
  · decide
  · decide
  · exact IsNumeral.no_bracket (.append (.cons (by decide) (by simp [IsNumeral])) (.magnitude _))
  · exact IsNumeral.no_bracket (.append (by simp [IsNumeral]) (.magnitude _))

/-- Only a value of a type that the language does not have is shown in brackets. -/
lemma Value.render_no_bracket {v : Value} (h : v.IsNative) : bracket ∉ v.render.bytes := by
  cases h with
  | int n => exact (IsNumeral.toString_int _).no_bracket
  | float f => exact Decimal.render_no_bracket f
  | bool b => cases b <;> decide

/-! ## Runs, statement by statement

What is shown of one statement on a reachable machine holds of every statement in a run, because a
run executes its statements on machines that it leads to. -/

namespace Machine

lemma leads_of_next {m after : Machine} {slot : Option Statement}
    (h : (m.executeSlot slot).machine = after) : m.Leads after := by
  cases slot with
  | none => exact h ▸ .refl
  | some s => exact h ▸ .execute m s

/-- A run executes its statements on machines that it leads to. -/
lemma leads_of_mem_walkFrom {m k : Machine} {index skip i : Nat} {slots : List (Option Statement)}
    (h : (i, k) ∈ (m.walkFrom index skip slots).visited) : m.Leads k := by
  induction slots generalizing m index skip with
  | nil => simp [walkFrom, Walk.rest] at h
  | cons slot rest ih =>
      cases skip with
      | succ skip => exact ih h
      | zero =>
          simp only [walkFrom] at h
          split at h
          · next after hnext =>
              rcases List.mem_cons.mp h with heq | h
              · cases heq
                exact .refl
              · exact (leads_of_next (by rw [hnext]; rfl)).trans (ih h)
          · next after hskip =>
              split at h
              · rcases List.mem_cons.mp h with heq | h
                · cases heq
                  exact .refl
                · exact (leads_of_next (by rw [hskip]; rfl)).trans (ih h)
              · cases List.mem_singleton.mp h
                exact .refl
          · cases List.mem_singleton.mp h
            exact .refl

/-- A run fails because of a statement that stops a machine that it leads to, or because a block is
not closed. -/
lemma runFrom_error_stop {m : Machine} {index skip : Nat} {slots : List (Option Statement)}
    {e : RuntimeError} (h : (m.runFrom index skip slots).error = some e) :
    e.fault = .unbalancedBlock ∨
      ∃ k after, m.Leads k ∧ k.executeSlot e.statement = .stop after e.fault := by
  induction slots generalizing m index skip with
  | nil => simp [runFrom] at h
  | cons slot rest ih =>
      -- an error behind the first statement
      have hlater {after : Machine} {skip : Nat} (hafter : m.Leads after)
          (h : (after.runFrom (index + 1) skip rest).error = some e) :
          e.fault = .unbalancedBlock ∨
            ∃ k after, m.Leads k ∧ k.executeSlot e.statement = .stop after e.fault := by
        rcases ih h with hblock | ⟨k, last, hk, hstop⟩
        · exact .inl hblock
        · exact .inr ⟨k, last, hafter.trans hk, hstop⟩
      cases skip with
      | succ skip => exact hlater .refl h
      | zero =>
          simp only [runFrom] at h
          split at h
          · next after hnext => exact hlater (leads_of_next (by rw [hnext]; rfl)) h
          · next after hskip =>
              split at h
              · exact hlater (leads_of_next (by rw [hskip]; rfl)) h
              · rw [← Option.some.inj h]
                exact .inl rfl
          · next after fault hstop =>
              rw [← Option.some.inj h]
              exact .inr ⟨m, after, .refl, hstop⟩

/-! ## Cells keep their types -/

lemma combineLiteral_type {m : Machine} {literal : Text} {v w : Value}
    (h : m.combineLiteral literal v = .ok w) : w.type = v.type := by
  simp only [combineLiteral] at h
  cases hread : Value.read v.type literal with
  | error fault => simp [hread, bind, Except.bind] at h
  | ok operand =>
      rw [hread] at h
      exact Value.combine_type h

lemma combineVariable_type {m : Machine} {name : Text} {v w : Value}
    (h : m.combineVariable name v = .ok w) : w.type = v.type := by
  simp only [combineVariable] at h
  split at h
  · simp at h
  · next u _ =>
      cases hconvert : u.convert v.type with
      | error fault => simp [hconvert, bind, Except.bind] at h
      | ok operand =>
          rw [hconvert] at h
          exact Value.combine_type h

/-- What sets a target keeps its type. -/
lemma updater_type {m : Machine} {s : Statement} {f : Value → Except Fault Value}
    (hs : m.updater? s = some f) {v w : Value} (h : f v = .ok w) : w.type = v.type := by
  cases s <;> simp only [updater?, Option.some.injEq, reduceCtorEq] at hs <;> subst hs
  case clear => exact Value.zeroOf_type h
  case push => exact combineLiteral_type h
  case get => exact combineVariable_type h

/-- **A statement changes the type of no cell.** -/
lemma Acts.read?_type {m after : Machine} {s : Statement} (hacts : Acts m s after) {l : Location}
    {v : Value} (hv : m.store.read? l = some v) :
    ∃ w, after.store.read? l = some w ∧ w.type = v.type := by
  cases hacts with
  | enter _ => exact ⟨v, hv, rfl⟩
  | declare _ _ =>
      refine ⟨v, ?_, rfl⟩
      have hold : l ≠ m.store.next := (Store.live_of_read? hv).ne_next
      exact (m.store.read?_add _ l).trans ((if_neg hold).trans hv)
  | @write f k u w hs htarget hf =>
      obtain ⟨_, hu⟩ := target?_eq_some.mp htarget
      have hread := Store.read?_write (Store.live_of_read? hu) w l
      by_cases hl : l = k
      · -- the cell of the target gets a value of the type that it had
        subst hl
        obtain rfl : u = v := Option.some.inj (hu.symm.trans hv)
        exact ⟨w, hread.trans (if_pos rfl), updater_type hs hf⟩
      · exact ⟨v, hread.trans ((if_neg hl).trans hv), rfl⟩
  | keep _ hstore => exact ⟨v, hstore ▸ hv, rfl⟩

/-- **A cell has one type for all time.** -/
theorem Leads.read?_type {m later : Machine} (h : m.Leads later) {l : Location} {v : Value}
    (hv : m.store.read? l = some v) : ∃ w, later.store.read? l = some w ∧ w.type = v.type := by
  refine h.invariant (P := fun k => ∃ w, k.store.read? l = some w ∧ w.type = v.type)
    ⟨v, hv, rfl⟩ ?_
  rintro k s ⟨w, hw, htype⟩
  obtain ⟨u, hu, htype'⟩ := (execute_acts k s).read?_type hw
  exact ⟨u, hu, htype'.trans htype⟩

/-! ## Operands -/

/-- The accumulated value and the operand that a statement combines, if it comes to that: there is
a target, and the operand can be read as a value of its type. -/
def combined? (m : Machine) (s : Statement) : Option (Value × Value) :=
  match m.target?, s with
  | some (_, acc), .push literal => (Value.read acc.type literal).toOption.map (acc, ·)
  | some (_, acc), .get name =>
    ((m.value? name).bind fun v => (v.convert acc.type).toOption).map (acc, ·)
  | _, _ => none

lemma toOption_eq_some {r : Except Fault Value} {v : Value} (h : r.toOption = some v) :
    r = .ok v := by
  cases r with
  | ok w => exact congrArg Except.ok (Option.some.inj h)
  | error fault => simp [Except.toOption] at h

/-- The two ways to an operand. -/
lemma combined?_cases {m : Machine} {s : Statement} {acc operand : Value}
    (h : m.combined? s = some (acc, operand)) :
    ∃ l, m.target? = some (l, acc) ∧
      ((∃ literal, s = .push literal ∧ Value.read acc.type literal = .ok operand) ∨
        ∃ name v, s = .get name ∧ m.value? name = some v ∧ v.convert acc.type = .ok operand) := by
  simp only [combined?] at h
  split at h
  · next l acc' literal htarget =>
      obtain ⟨w, hw, heq⟩ := Option.map_eq_some_iff.mp h
      obtain ⟨rfl, rfl⟩ := Prod.mk.inj heq
      exact ⟨l, htarget, .inl ⟨literal, rfl, toOption_eq_some hw⟩⟩
  · next l acc' name htarget =>
      obtain ⟨w, hw, heq⟩ := Option.map_eq_some_iff.mp h
      obtain ⟨rfl, rfl⟩ := Prod.mk.inj heq
      obtain ⟨v, hv, hconvert⟩ := Option.bind_eq_some_iff.mp hw
      exact ⟨l, htarget, .inr ⟨name, v, rfl, hv, toOption_eq_some hconvert⟩⟩
  · simp at h

/-- A statement with an operand sets the target to what the combination gives. -/
lemma execute_combined {m : Machine} {s : Statement} {acc operand : Value}
    (h : m.combined? s = some (acc, operand)) :
    m.execute s = m.update fun _ => Value.combine m.operator acc operand := by
  obtain ⟨l, htarget, ⟨literal, rfl, hread⟩ | ⟨name, v, rfl, hv, hconvert⟩⟩ := combined?_cases h
  · simp only [execute, update, htarget, combineLiteral, hread]
    rfl
  · simp only [execute, update, htarget, combineVariable, hv, hconvert]
    rfl

/-- Without an operand, what would combine one stops the machine instead. -/
lemma execute_not_combined {m : Machine} {s : Statement}
    (hs : (∃ literal, s = .push literal) ∨ ∃ name, s = .get name) (h : m.combined? s = none) :
    ∃ fault, m.execute s = .stop m fault := by
  cases htarget : m.target? with
  | none =>
      rcases hs with ⟨literal, rfl⟩ | ⟨name, rfl⟩ <;>
        exact ⟨.noTarget, by simp [execute, update, htarget]⟩
  | some target =>
      obtain ⟨l, acc⟩ := target
      rcases hs with ⟨literal, rfl⟩ | ⟨name, rfl⟩
      · cases hread : Value.read acc.type literal with
        | ok operand => simp [combined?, htarget, hread, Except.toOption] at h
        | error fault =>
            exact ⟨fault, by
              simp [execute, update, htarget, combineLiteral, hread, bind, Except.bind]⟩
      · cases hv : m.value? name with
        | none =>
            exact ⟨.undefinedVariable name, by
              simp [execute, update, htarget, combineVariable, hv]⟩
        | some v =>
            cases hconvert : v.convert acc.type with
            | ok operand => simp [combined?, htarget, hv, hconvert, Except.toOption] at h
            | error fault =>
                exact ⟨fault, by
                  simp [execute, update, htarget, combineVariable, hv, hconvert, bind,
                    Except.bind]⟩

/-- **An operand has the type of what it is combined with.** -/
lemma combined?_type {m : Machine} {s : Statement} {acc operand : Value}
    (h : m.combined? s = some (acc, operand)) : operand.type = acc.type := by
  obtain ⟨l, _, ⟨literal, _, hread⟩ | ⟨name, v, _, _, hconvert⟩⟩ := combined?_cases h
  · exact Value.read_type hread
  · exact Value.convert_type hconvert

/-! ## Unknown types -/

lemma update_stop {m after : Machine} {f : Value → Except Fault Value} {fault : Fault}
    (h : m.update f = .stop after fault) :
    fault = .noTarget ∨ ∃ l v, m.target? = some (l, v) ∧ f v = .error fault := by
  simp only [update] at h
  split at h
  · exact .inl (Effect.stop.inj h).2.symm
  · next l v htarget =>
      split at h
      · simp at h
      · next fault' hf =>
          obtain ⟨_, rfl⟩ := Effect.stop.inj h
          exact .inr ⟨l, v, htarget, hf⟩

/-- Only a type marker stops a sound machine for an unknown type. -/
lemma Sound.unknownType {m after : Machine} (hm : m.Sound) {s : Statement} {name : Text}
    (h : m.execute s = .stop after (.unknownType name)) : s = .type name := by
  -- what sets the target fails for ordinary reasons, and this is none
  have hupdate {f : Value → Except Fault Value} (hs : m.updater? s = some f) : False := by
    rw [execute_updater hs] at h
    rcases update_stop h with hfault | ⟨l, v, htarget, hf⟩
    · simp at hfault
    · exact absurd (updater_fault hs (hm.target? htarget) hf).2 (by simp [Fault.isOrdinary])
  cases s with
  | type word =>
      simp only [Machine.execute] at h
      split at h
      · simp at h
      · next fault hzero =>
          obtain ⟨_, rfl⟩ := Effect.stop.inj h
          rw [Fault.unknownType.inj (Value.zeroOf_eq_error hzero)]
  | declare x =>
      obtain ⟨t, _, hdeclare⟩ := hm.execute_declare x
      simp [hdeclare] at h
  | clear literal => exact (hupdate rfl).elim
  | push literal => exact (hupdate rfl).elim
  | get x => exact (hupdate rfl).elim
  | load _ | test _ =>
      simp only [Machine.execute] at h
      split at h <;> simp at h
  | compare op =>
      simp only [Machine.execute, Machine.compareTop] at h
      split at h
      · split at h
        · simp at h
        · next fault hfault =>
            obtain ⟨_, rfl⟩ := Effect.stop.inj h
            exact absurd (Value.compare_fault hfault) (by simp [Fault.isOrdinary])
      · simp at h
  | branch =>
      simp only [Machine.execute, Machine.branchTop] at h
      split at h
      · simp at h
      · split at h <;> simp at h
  | _ => simp [Machine.execute] at h

lemma Reachable.unknownType {m : Machine} (h : m.Reachable) {slots : List (Option Statement)}
    {e : RuntimeError} {name : Text} (he : (m.runSlots slots).error = some e)
    (hfault : e.fault = .unknownType name) : e.statement = some (.type name) := by
  rcases runFrom_error_stop he with hblock | ⟨k, after, hk, hstop⟩
  · simp [hblock] at hfault
  · rw [hfault] at hstop
    cases hs : e.statement with
    | none => simp [hs, executeSlot] at hstop
    | some s =>
        rw [hs] at hstop
        exact congrArg some ((h.leads hk).sound.unknownType hstop)

end Machine

/-! ## Dumps -/

/-- The text stands somewhere in the other one. -/
def Text.OccursIn (t whole : Text) : Prop :=
  t.bytes <:+: whole.bytes

/-- What has no separator in it stands in front of one or behind it. -/
lemma infix_append_cons_iff {p xs ys : List UInt8} {sep : UInt8} (hp : sep ∉ p) :
    p <:+: xs ++ sep :: ys ↔ p <:+: xs ∨ p <:+: ys := by
  constructor
  · rintro ⟨front, back, h⟩
    rcases List.append_eq_append_iff.mp h with ⟨more, rfl, -⟩ | ⟨more, hfront, hback⟩
    · exact .inl ⟨front, more, rfl⟩
    cases more with
    | nil => exact .inl ⟨front, [], by simpa using hfront⟩
    | cons b more =>
        -- the separator is in `front`, since it is not in `p`
        obtain ⟨rfl, rfl⟩ := List.cons.inj hback
        rcases List.append_eq_append_iff.mp hfront with ⟨start, -, rfl⟩ | ⟨start, -, hmore⟩
        · simp at hp
        · cases start with
          | nil =>
              rw [List.nil_append] at hmore
              simp [← hmore] at hp
          | cons _ start =>
              obtain ⟨-, rfl⟩ := List.cons.inj hmore
              exact .inr ⟨start, back, rfl⟩
  · rintro (h | h)
    · exact h.trans (List.prefix_append xs _).isInfix
    · exact h.trans ((List.suffix_cons sep ys).trans (List.suffix_append xs _)).isInfix

/-- What has no newline in it stands in one of the lines. -/
lemma infix_lines_iff {α : Type} {p : List UInt8} (hne : p ≠ []) (hp : Text.newline ∉ p)
    {lines : List α} {f : α → List UInt8} :
    p <:+: lines.flatMap (fun x => f x ++ [Text.newline]) ↔ ∃ x ∈ lines, p <:+: f x := by
  induction lines with
  | nil => simp [hne]
  | cons x lines ih =>
      rw [List.flatMap_cons, List.append_assoc, List.singleton_append, infix_append_cons_iff hp, ih,
        List.exists_mem_cons_iff]

namespace Machine

lemma mem_scopeNames {m : Machine} {scope name : Text} {v : Value}
    (h : m.lookup? scope name = some v) : scope ∈ m.scopeNames := by
  unfold lookup? at h
  split at h
  · next s hs =>
      have hmem : scope ∈ m.scopes := Std.TreeMap.mem_iff_isSome_getElem?.mpr (by simp [hs])
      exact Std.TreeMap.mem_keys.mpr hmem
  · simp at h

/-- The line of a variable, without its newline: scope, name and value, with a point and an equals
sign between two spaces. -/
def lineBytes (shown : Text × Text × Value) : List UInt8 :=
  shown.1.bytes ++ 46 :: (shown.2.1.bytes ++ 32 :: ([61] ++ 32 :: shown.2.2.render.bytes))

/-- A dump is the lines of all variables. -/
lemma dump_bytes (m : Machine) :
    m.dump.bytes = (m.scopeNames.flatMap fun scope => (m.bindings scope).map (scope, ·)).flatMap
      fun shown => lineBytes shown ++ [Text.newline] := by
  have hline (scope name : Text) (v : Value) :
      (Text.concat [scope, ".", name, " = ", v.render, "\n"]).bytes
        = lineBytes (scope, name, v) ++ [Text.newline] := by
    have hmarks : ("." : Text).bytes = [46] ∧ (" = " : Text).bytes = [32, 61, 32] ∧
        ("\n" : Text).bytes = [Text.newline] := by decide
    simp [Text.concat, lineBytes, hmarks]
  simp only [dump, Text.concat, List.flatMap_assoc, List.flatMap_map, ← hline]

lemma lookup?_isNative {m : Machine} (h : m.Sound) {scope name : Text} {v : Value}
    (hv : m.lookup? scope name = some v) : v.IsNative := by
  rw [lookup?_eq] at hv
  obtain ⟨l, _, hl⟩ := Option.bind_eq_some_iff.mp hv
  exact h.store.read? hl

/-- **A dump has `<invalid>` in it only where a scope or a variable is named so.** -/
lemma Sound.occursIn_dump {m : Machine} (h : m.Sound) :
    ("<invalid>" : Text).OccursIn m.dump ↔ ∃ scope name v, m.lookup? scope name = some v ∧
      (("<invalid>" : Text).OccursIn scope ∨ ("<invalid>" : Text).OccursIn name) := by
  have hbracket : bracket ∈ ("<invalid>" : Text).bytes := by decide
  have hline {scope name : Text} {v : Value} (hv : v.IsNative) :
      ("<invalid>" : Text).bytes <:+: lineBytes (scope, name, v) ↔
        ("<invalid>" : Text).OccursIn scope ∨ ("<invalid>" : Text).OccursIn name := by
    have hrender : ¬ ("<invalid>" : Text).bytes <:+: v.render.bytes := fun hfound =>
      Value.render_no_bracket hv (hfound.subset hbracket)
    have hequals : ¬ ("<invalid>" : Text).bytes <:+: [61] := by decide
    rw [lineBytes, infix_append_cons_iff (by decide), infix_append_cons_iff (by decide),
      infix_append_cons_iff (by decide), or_iff_left hrender, or_iff_left hequals]
    rfl
  rw [Text.OccursIn, dump_bytes, infix_lines_iff (by decide) (by decide)]
  constructor
  · rintro ⟨shown, hshown, hfound⟩
    obtain ⟨scope, -, hshown⟩ := List.mem_flatMap.mp hshown
    obtain ⟨⟨name, v⟩, hv, rfl⟩ := List.mem_map.mp hshown
    have hv := mem_bindings.mp hv
    exact ⟨scope, name, v, hv, (hline (lookup?_isNative h hv)).mp hfound⟩
  · rintro ⟨scope, name, v, hv, hoccurs⟩
    refine ⟨(scope, name, v), List.mem_flatMap.mpr ⟨scope, mem_scopeNames hv, ?_⟩,
      (hline (lookup?_isNative h hv)).mpr hoccurs⟩
    exact List.mem_map.mpr ⟨(name, v), mem_bindings.mpr hv, rfl⟩

end Machine

/-! ## Reachable machines -/

/-- The value names one of the three types, and the fields of the other two are zero. -/
def Value.Typed (v : Value) : Prop :=
  v.type = "int" ∧ v.real = 0.0 ∧ v.truth = false ∨
  v.type = "float" ∧ v.whole = 0 ∧ v.truth = false ∨
  v.type = "bool" ∧ v.whole = 0 ∧ v.real = 0.0

lemma Value.typed_of_isNative {v : Value} (h : v.IsNative) : v.Typed := by
  cases h with
  | int n => exact .inl ⟨rfl, rfl, rfl⟩
  | float f => exact .inr (.inl ⟨rfl, rfl, rfl⟩)
  | bool b => exact .inr (.inr ⟨rfl, rfl, rfl⟩)

namespace Machine

/-- Everything on the machine that has a type has one of the three. -/
structure Typed (m : Machine) : Prop where
  declarations : m.type = "int" ∨ m.type = "float" ∨ m.type = "bool"
  names : ∀ scope name v, m.lookup? scope name = some v → v.Typed
  targets : ∀ l ∈ m.targets, ∃ v, m.store.read? l = some v ∧ v.Typed
  conditions : ∀ v ∈ m.conditions, v.Typed

lemma Sound.typed {m : Machine} (h : m.Sound) : m.Typed where
  declarations := by
    obtain ⟨t, ht⟩ := h.type
    rw [ht]
    cases t <;> decide
  names := fun _ _ _ hv => Value.typed_of_isNative (lookup?_isNative h hv)
  targets := by
    intro l hl
    obtain ⟨v, hv⟩ := (h.targets l hl).read?
    exact ⟨v, hv, Value.typed_of_isNative (h.store.read? hv)⟩
  conditions := fun v hv => Value.typed_of_isNative (h.conditions v hv)

/-- **Values keep their types.**  Of every reachable machine, and so of every machine on which a
run executes a statement, it holds that

* the declarations, variables, targets and conditions all have one of the three types, and of a value
  the fields of the other two types are zero;
* a declaration succeeds, and the cell that it makes has the type in force, for all time;
* so does any cell keep its type;
* a value is combined with operands of its own type only;
* no run fails for an unknown type, except at a type marker;
* no value is shown as invalid, and `<invalid>` is in a dump only where a scope or a variable is
  named so. -/
theorem reachable_values_typed (m : Machine) (h : m.Reachable) :
    m.Typed ∧
    (∀ slots, ∀ executed ∈ (m.walkFrom 0 0 slots).visited, executed.2.Reachable) ∧
    (∀ name, ∃ after, m.execute (.declare name) = .next after ∧
      after.place? m.scope name = some m.store.next ∧
      ∀ later, after.Leads later →
        ∃ v, later.store.read? m.store.next = some v ∧ v.type = m.type) ∧
    (∀ later l v, m.Leads later → m.store.read? l = some v →
      ∃ w, later.store.read? l = some w ∧ w.type = v.type) ∧
    (∀ s acc operand, m.combined? s = some (acc, operand) →
      m.execute s = m.update (fun _ => Value.combine m.operator acc operand) ∧
        operand.type = acc.type) ∧
    (∀ s, ((∃ literal, s = .push literal) ∨ ∃ name, s = .get name) → m.combined? s = none →
      ∃ fault, m.execute s = .stop m fault) ∧
    (∀ slots e name, (m.runSlots slots).error = some e → e.fault = .unknownType name →
      e.statement = some (.type name)) ∧
    (∀ scope, ∀ shown ∈ m.bindings scope, shown.2.render ≠ "<invalid>") ∧
    (("<invalid>" : Text).OccursIn m.dump ↔ ∃ scope name v, m.lookup? scope name = some v ∧
      (("<invalid>" : Text).OccursIn scope ∨ ("<invalid>" : Text).OccursIn name)) := by
  refine ⟨h.sound.typed, fun slots executed hv => h.leads (leads_of_mem_walkFrom hv), ?_,
    fun later l v hlater hv => hlater.read?_type hv,
    fun s acc operand hs => ⟨execute_combined hs, combined?_type hs⟩,
    fun s hs hnone => execute_not_combined hs hnone,
    fun slots e name he hfault => h.unknownType he hfault, ?_, h.sound.occursIn_dump⟩
  · intro name
    obtain ⟨t, ht, hdeclare⟩ := h.sound.execute_declare name
    refine ⟨_, hdeclare, (m.place?_declare name _ _ _).trans (if_pos ⟨rfl, rfl⟩), ?_⟩
    intro later hlater
    have hzero : (m.declare name (.zero t)).store.read? m.store.next = some (.zero t) :=
      (m.store.read?_add _ _).trans (if_pos rfl)
    obtain ⟨v, hv, htype⟩ := hlater.read?_type hzero
    exact ⟨v, hv, htype.trans ht.symm⟩
  · rintro scope ⟨name, v⟩ hshown heq
    have hbracket := Value.render_no_bracket (lookup?_isNative h.sound (mem_bindings.mp hshown))
    rw [heq] at hbracket
    exact hbracket (by decide)

/-- A run that failed at a literal has left a target of a type that is no longer in force, and a
condition.  No run leads to the same machine with another type in force, on which a declaration
fails, or with a value of another type, which cannot be cleared and is shown as invalid. -/
theorem reachable_values_typed_after_failure :
    let m := (Machine.new.run [.declare "i", .load "i", .type "float", .test "true",
      .push "1.5"]).machine
    let foreign : Machine := { m with type := "string" }
    let odd : Machine := m.write ⟨0⟩ { type := "string" }
    m.Reachable ∧ m.type = "float" ∧ m.conditions = [.bool true] ∧
      m.combined? (.push "2") = some (.int 0, .int 2) ∧ m.combined? (.push "1.5") = none ∧
      m.Typed ∧
      m.execute (.push "2") = m.update (fun _ => Value.combine m.operator (.int 0) (.int 2)) ∧
      (∃ fault, m.execute (.push "1.5") = .stop m fault) ∧
      (∀ shown ∈ m.bindings "global", shown.2.render ≠ "<invalid>") ∧
      m.dump = "global.i = 0\n" ∧
      foreign.execute (.declare "x") = .stop foreign (.unknownType "string") ∧
      ¬ foreign.Reachable ∧
      odd.execute (.clear "0") = .stop odd (.unknownType "string") ∧
      odd.dump = "global.i = <invalid>\n" ∧ ¬ odd.Reachable := by
  intro m foreign odd
  have hm : m.Reachable := .run _ .new
  have hoperand : m.combined? (.push "2") = some (.int 0, .int 2) := by decide +kernel
  have hnone : m.combined? (.push "1.5") = none := by decide +kernel
  obtain ⟨htyped, _, _, _, hcombined, hstops, _, hshown, _⟩ := reachable_values_typed m hm
  have hforeign : foreign.execute (.declare "x") = .stop foreign (.unknownType "string") := rfl
  refine ⟨hm, by decide +kernel, by decide +kernel, hoperand, hnone, htyped,
    (hcombined _ _ _ hoperand).1, hstops _ (.inl ⟨_, rfl⟩) hnone, hshown "global",
    by decide +kernel, hforeign, fun h => ?_, rfl, by decide +kernel, fun h => ?_⟩
  · obtain ⟨_, _, hdeclare, _⟩ := reachable_values_typed foreign h
    obtain ⟨after, hnext, _⟩ := hdeclare "x"
    simp [hforeign] at hnext
  · obtain ⟨_, _, _, _, _, _, _, hodd, _⟩ := reachable_values_typed odd h
    exact hodd "global" ("i", { type := "string" }) (by decide +kernel) (by decide)

end Machine

end Scriptlet
