import Mathlib
import Scriptlet.Proofs.Literals
import Scriptlet.Proofs.Layout
import Scriptlet.Proofs.Safety
import Scriptlet.Proofs.Variables

/-!
# The operands of conditions

The head of an `if` has one operand or two, each a number token or a name.  Its statement keeps the
text of the token and not the kind, and the machine tells a literal from a variable by the text: what
it can read is a literal, all else is looked up.

A name is never read, so it is always looked up.  A number token that denotes a value is always read.
But a number token need not denote a value (`Denotes`), and then it is looked up as well; there is no
complaint about a bad literal, as there is in an expression.  No script can declare such a variable,
so the lookup fails.

* `Derives.code_tests` — the tests of a listing are the operands of its heads, in order.
* `Machine.Scripted` — the machines on which only scripts have run; their variables have names that
  the scanner takes for names (`Scripted.named`).
* **`condition_operands_by_kind`** — how the operands of conditions are executed.
* `number_operand_looked_up` — a number that is too large is said to be undefined.
-/

namespace Scriptlet

/-! ## The operands in the listing -/

/-- The operand that a statement tests, if it is a test. -/
def Statement.tested? : Statement → Option Text
  | .test operand => some operand
  | _ => none

/-- The operands of a head. -/
def Condition.operands : List Token → List Token
  | [operand] => [operand]
  | [left, _, right] => [left, right]
  | _ => []

/-- The operands of the heads of a program, in order. -/
def Program.operands : Program → List Token
  | done => []
  | type _ rest => rest.operands
  | declare _ rest => rest.operands
  | assign _ _ _ _ rest => rest.operands
  | ignored _ rest => rest.operands
  | block _ head _ _ body _ rest => Condition.operands head ++ (body.operands ++ rest.operands)

/-- The operands of a head are tokens of it, and each is a number or a name. -/
lemma Condition.mem_operands {head : List Token} {front : List Statement}
    (h : Condition.head head = .ok front) {t : Token} (ht : t ∈ operands head) :
    t ∈ head ∧ (t.kind = .number ∨ t.kind = .identifier) := by
  match head, h with
  | [a], h =>
      obtain rfl := List.mem_singleton.mp ht
      simp only [Condition.head, checkOperand] at h
      split_ifs at h with hkind
      · exact ⟨by simp, by simpa using hkind⟩
      · cases h
  | [a, c, b], h =>
      simp only [Condition.head, checkOperand, checkComparison] at h
      split_ifs at h with ha hc hb
      all_goals try cases h
      simp only [operands, List.mem_cons, List.not_mem_nil, or_false] at ht
      rcases ht with rfl | rfl
      · exact ⟨by simp, by simpa using ha⟩
      · exact ⟨by simp, by simpa using hb⟩

lemma Condition.head_tests {head : List Token} {front : List Statement}
    (h : Condition.head head = .ok front) :
    front.filterMap Statement.tested? = (operands head).map Token.literal := by
  rcases Condition.head_cases h with ⟨a, rfl, rfl⟩ | ⟨a, c, b, rfl, rfl⟩ <;> rfl

lemma expressionCode_tests (m : Modes) (value : List Token) :
    (expressionCode m value).filterMap Statement.tested? = [] := by
  refine List.filterMap_eq_nil_iff.mpr fun s hs => ?_
  obtain ⟨t, -, rfl | rfl | rfl⟩ := mem_expressionCode hs <;> rfl

/-- **The tests of a listing are the operands of its heads.** -/
theorem Derives.code_tests {strict : Bool} {ts : List Token} {p : Program}
    (h : Derives ⟨.standard, strict⟩ ts p) (m : Modes) :
    (p.code m).filterMap Statement.tested? = p.operands.map Token.literal := by
  have hmarkers {l : List Statement} (hl : ∀ s ∈ l, s.tested? = none) :
      l.filterMap Statement.tested? = [] := List.filterMap_eq_nil_iff.mpr hl
  induction h generalizing m with
  | done => rfl
  | type _ _ ih =>
      rw [Program.code, List.filterMap_append, ih, hmarkers, Program.operands, List.nil_append]
      intro s hs
      rw [Modes.mem_typeMarker hs]
      rfl
  | declare _ _ ih => exact ih m
  | @assign name equals terminator value ts rest _ _ _ _ _ ih =>
      have hrestart : m.restartMarker.filterMap Statement.tested? = [] := by
        apply hmarkers
        intro s hs
        rw [Modes.mem_restartMarker hs]
        rfl
      show (m.restartMarker ++ (expressionCode m.restart value ++ rest.code _)).filterMap _ = _
      rw [List.filterMap_append, List.filterMap_append, hrestart, expressionCode_tests, ih]
      rfl
  | ignored _ _ _ _ ih => exact ih m
  | @block word opening closing head inner ts handler front body rest _ hsome _ hfront _ _ _ _
      ihbody ihrest =>
      rw [Keywords.standard_handler hsome] at hfront
      have hopening : (if front.any Statement.opensBlock then []
          else [Statement.beginBlock]).filterMap Statement.tested? = [] := by
        apply hmarkers
        intro s hs
        split_ifs at hs
        · simp at hs
        · rw [List.mem_singleton.mp hs]
          rfl
      have hend : (Statement.endBlock :: rest.code (body.modes m)).filterMap Statement.tested?
          = rest.operands.map Token.literal := ihrest _
      rw [Program.code, List.filterMap_append, List.filterMap_append, List.filterMap_append,
        hopening, hend, ihbody, Condition.head_tests hfront, List.append_nil, Program.operands,
        List.map_append, List.map_append]

/-- The operands of a program are tokens of it, and each is a number or a name. -/
lemma Derives.mem_operands {strict : Bool} {ts : List Token} {p : Program}
    (h : Derives ⟨.standard, strict⟩ ts p) {t : Token} (ht : t ∈ p.operands) :
    t ∈ ts ∧ (t.kind = .number ∨ t.kind = .identifier) := by
  induction h with
  | done => simp [Program.operands] at ht
  | type _ _ ih => exact ⟨List.mem_cons_of_mem _ (ih ht).1, (ih ht).2⟩
  | declare _ _ ih => exact ⟨List.mem_cons_of_mem _ (ih ht).1, (ih ht).2⟩
  | assign _ _ _ _ _ ih => exact ⟨by simp [(ih ht).1], (ih ht).2⟩
  | ignored _ _ _ _ ih => exact ⟨List.mem_cons_of_mem _ (ih ht).1, (ih ht).2⟩
  | block _ hsome _ hfront _ _ _ _ ihbody ihrest =>
      rw [Keywords.standard_handler hsome] at hfront
      rcases List.mem_append.mp ht with ht | ht
      · obtain ⟨hmem, hkind⟩ := Condition.mem_operands hfront ht
        exact ⟨by simp [hmem], hkind⟩
      rcases List.mem_append.mp ht with ht | ht
      · exact ⟨by simp [(ihbody ht).1], (ihbody ht).2⟩
      · exact ⟨by simp [(ihrest ht).1], (ihrest ht).2⟩

/-! ## Names -/

/-- The scanner takes the text for a name. -/
def Text.IsName (t : Text) : Prop :=
  ∃ text rest, IsLexeme (.token .identifier) text rest ∧ t = .ofChars text

/-- The listing of a source declares what the scanner takes for names. -/
lemma Dialect.listing_declares {strict : Bool} {source : Text} {listing : List Statement}
    (h : Dialect.listing ⟨.standard, strict⟩ source = .ok listing) {name : Text}
    (hname : .declare name ∈ listing) : name.IsName := by
  obtain ⟨ts, hscan, hcompile⟩ := Dialect.listing_eq_ok h
  obtain ⟨p, hp, rfl⟩ := listing_eq_ok_iff.mp hcompile
  have hcode : .declare name ∈ p.code ⟨"int", "+"⟩ := by simpa [seedMarkers] using hname
  cases hp.code_madeOf hcode with
  | declare ht hkind =>
      obtain ⟨text, rest, hlexeme, hliteral⟩ := (scan_eq_ok_iff.mp hscan).isLexeme ht
      exact ⟨text, rest, hkind ▸ hlexeme, hliteral⟩

namespace Machine

/-- The machines on which only scripts have run, whether they failed or not. -/
inductive Scripted : Machine → Prop where
  | new : Scripted new
  | run {m : Machine} {strict : Bool} {source : Text} {listing : List Statement} : Scripted m →
      Dialect.listing ⟨.standard, strict⟩ source = .ok listing → Scripted (m.run listing).machine

/-- What stands for a variable is a name. -/
def Named (m : Machine) : Prop :=
  ∀ ⦃scope name : Text⦄ ⦃l : Location⦄, m.place? scope name = some l → name.IsName

/-- A statement keeps this, unless it declares something else. -/
lemma Named.execute {m : Machine} (h : m.Named) {s : Statement}
    (hs : ∀ name, s = .declare name → name.IsName) : (m.execute s).machine.Named := by
  have hacts := m.execute_acts s
  generalize (m.execute s).machine = after at hacts
  intro scope name l hplace
  cases hacts with
  | enter _ => exact h (by simpa using hplace)
  | @declare declared _ hdeclare =>
      rw [place?_declare] at hplace
      split_ifs at hplace with hnew
      · exact hnew.2 ▸ hs declared hdeclare
      · exact h hplace
  | write _ _ _ => exact h hplace
  | keep hscopes _ =>
      rw [place?, hscopes] at hplace
      exact h hplace

/-- The variables of scripts have names. -/
lemma Scripted.named {m : Machine} (h : m.Scripted) : m.Named := by
  induction h with
  | new =>
      intro scope name l hplace
      simp only [place?, Machine.new, Std.TreeMap.getElem?_insert] at hplace
      split_ifs at hplace <;> simp at hplace
  | run _ hlisting ih =>
      refine runFrom_invariant (P := Named) (fun m s hs hm => hm.execute ?_) ih 0 0
      rintro name rfl
      exact Dialect.listing_declares hlisting (by simpa using hs)

/-- So it is wherever the run of a script arrives. -/
lemma Arrives.named {start m : Machine} {strict : Bool} {source : Text} {listing : List Statement}
    {index : Nat} (hlisting : Dialect.listing ⟨.standard, strict⟩ source = .ok listing)
    (hstart : start.Named) (h : Arrives start listing index m) : m.Named := by
  have hdeclares {index : Nat} {s : Statement} (hs : listing[index]? = some s) :
      ∀ name, s = .declare name → name.IsName := by
    rintro name rfl
    exact Dialect.listing_declares hlisting (List.mem_of_getElem? hs)
  induction h with
  | start => exact hstart
  | next _ hs hnext ih =>
      have hnamed := ih.execute (hdeclares hs)
      rwa [hnext] at hnamed
  | pass _ hs hskip _ ih =>
      have hnamed := ih.execute (hdeclares hs)
      rwa [hskip] at hnamed

/-! ## Executing a test -/

/-- A test that looks its operand up. -/
def testVariable (m : Machine) (name : Text) : Effect :=
  match m.value? name with
  | some v => .next { m with conditions := m.conditions.push v }
  | none => .stop m (.undefinedVariable name)

/-- A test that takes a value for granted. -/
def testValue (m : Machine) (v : Value) : Effect :=
  .next { m with conditions := m.conditions.push v }

lemma execute_test (m : Machine) (operand : Text) :
    m.execute (.test operand) = match Value.infer? operand with
      | some v => m.testValue v
      | none => m.testVariable operand := by
  simp only [execute, operand?, testValue, testVariable]
  cases Value.infer? operand <;> rfl

lemma Named.testVariable {m : Machine} (h : m.Named) {name : Text} (hname : ¬ name.IsName) :
    m.testVariable name = .stop m (.undefinedVariable name) := by
  have hnone : m.value? name = none := by
    rw [value?_eq, lookup?_eq]
    cases hplace : m.place? m.scope name with
    | none => rfl
    | some l => exact absurd (h hplace) hname
  simp only [Machine.testVariable, hnone]

end Machine

lemma IsLexeme.number_not_name {text rest : List Char} (h : IsLexeme (.token .number) text rest) :
    ¬ (Text.ofChars text).IsName := by
  rintro ⟨text', rest', h', heq⟩
  have htext : text = text' := by rw [← Text.chars_ofChars text, heq, Text.chars_ofChars]
  subst htext
  cases h.shape_unique h'

/-- **How the operands of conditions are executed.**  In the listing of a source, the tests are the
operands of the heads in order, and every operand is a number token or a name of the source.

* A name is looked up, on every machine.
* A number token that denotes a value is that value, on every machine.
* A number token that denotes none is looked up, on every machine.  Where only scripts have run, the
  test of such a token stops with an undefined variable, wherever the run of the listing comes to. -/
theorem condition_operands_by_kind (strict : Bool) (source : Text) (listing : List Statement)
    (h : Dialect.listing ⟨.standard, strict⟩ source = .ok listing) :
    ∃ ts p, scan source = .ok ts ∧ Derives ⟨.standard, strict⟩ ts p ∧
      listing.filterMap Statement.tested? = p.operands.map Token.literal ∧
      ∀ t ∈ p.operands, t ∈ ts ∧
        (t.kind = .identifier ∧
          (∀ m : Machine, m.execute (.test t.literal) = m.testVariable t.literal) ∨
        t.kind = .number ∧
          ((∃ v, Denotes t.literal.chars v ∧
              ∀ m : Machine, m.execute (.test t.literal) = m.testValue v) ∨
            (∀ v, ¬ Denotes t.literal.chars v) ∧
              (∀ m : Machine, m.execute (.test t.literal) = m.testVariable t.literal) ∧
              ∀ start : Machine, start.Scripted → ∀ index m,
                (index, m) ∈ (start.walk listing).visited →
                m.execute (.test t.literal) = .stop m (.undefinedVariable t.literal))) := by
  obtain ⟨ts, hscan, hcompile⟩ := Dialect.listing_eq_ok h
  obtain ⟨p, hp, hlisting⟩ := listing_eq_ok_iff.mp hcompile
  refine ⟨ts, p, hscan, hp, ?_, fun t ht => ?_⟩
  · rw [hlisting]
    exact hp.code_tests _
  obtain ⟨hmem, hkind⟩ := hp.mem_operands ht
  obtain ⟨text, rest, hlexeme, hliteral⟩ := (scan_eq_ok_iff.mp hscan).isLexeme hmem
  refine ⟨hmem, ?_⟩
  rw [hliteral, Text.chars_ofChars]
  rcases hkind with hkind | hkind
  · rw [hkind] at hlexeme
    refine .inr ⟨hkind, ?_⟩
    cases hinfer : Value.infer? (Text.ofChars text) with
    | some v =>
        refine .inl ⟨v, hlexeme.infer?_number.mp hinfer, fun m => ?_⟩
        rw [Machine.execute_test, hinfer]
    | none =>
        have hlookup (m : Machine) :
            m.execute (.test (.ofChars text)) = m.testVariable (.ofChars text) := by
          rw [Machine.execute_test, hinfer]
        refine .inr ⟨fun v hv => ?_, hlookup, fun start hstart index m hm => ?_⟩
        · rw [hv.infer?] at hinfer
          cases hinfer
        · have hnamed := (Machine.mem_visited_iff.mp hm).1.named h hstart.named
          rw [hlookup, hnamed.testVariable hlexeme.number_not_name]
  · rw [hkind] at hlexeme
    refine .inl ⟨hkind, fun m => ?_⟩
    rw [Machine.execute_test, hlexeme.infer?_identifier]

/-- A name, a number with a point, a truth value, and a number that denotes no value. -/
theorem condition_operands_by_kind_mixed :
    let source : Text := "if x < 12.5 \x7b if 99999999999999999999 == true \x7b \x7d \x7d"
    let listing : List Statement :=
      [.scope "global", .type "int", .operator "+", .test "x", .test "12.5", .compare "<", .branch,
        .test "99999999999999999999", .test "true", .compare "==", .branch, .endBlock, .endBlock]
    Dialect.listing ⟨.standard, true⟩ source = .ok listing ∧
    ∃ ts p, scan source = .ok ts ∧ Derives ⟨.standard, true⟩ ts p ∧
      p.operands.map Token.literal = ["x", "12.5", "99999999999999999999", "true"] ∧
      ∀ t ∈ p.operands, t ∈ ts ∧
        (t.kind = .identifier ∧
          (∀ m : Machine, m.execute (.test t.literal) = m.testVariable t.literal) ∨
        t.kind = .number ∧
          ((∃ v, Denotes t.literal.chars v ∧
              ∀ m : Machine, m.execute (.test t.literal) = m.testValue v) ∨
            (∀ v, ¬ Denotes t.literal.chars v) ∧
              (∀ m : Machine, m.execute (.test t.literal) = m.testVariable t.literal) ∧
              ∀ start : Machine, start.Scripted → ∀ index m,
                (index, m) ∈ (start.walk listing).visited →
                m.execute (.test t.literal) = .stop m (.undefinedVariable t.literal))) := by
  intro source listing
  have hlisting : Dialect.listing ⟨.standard, true⟩ source = .ok listing := by decide +kernel
  obtain ⟨ts, p, hscan, hp, htests, hoperands⟩ :=
    condition_operands_by_kind true source listing hlisting
  exact ⟨hlisting, ts, p, hscan, hp, htests.symm, hoperands⟩

/-- A number token that denotes no value is looked up: it is said to be undefined where a bad literal
would be expected, and where there is a variable of that name the condition is its value. -/
theorem number_operand_looked_up :
    let literal : Text := "99999999999999999999"
    let listing : List Statement :=
      [.scope "global", .type "int", .operator "+", .test literal, .branch, .endBlock]
    let declared := (Machine.new.run [.declare literal]).machine
    scan "if 99999999999999999999 \x7b \x7d" = .ok [⟨.keyword, "if", 1, 1⟩, ⟨.number, literal, 1, 4⟩,
      ⟨.openDelim, "\x7b", 1, 25⟩, ⟨.closeDelim, "\x7d", 1, 27⟩] ∧
    Dialect.listing ⟨.standard, false⟩ "if 99999999999999999999 \x7b \x7d" = .ok listing ∧
    (Machine.new.run listing).error
      = some ⟨3, some (.test literal), .undefinedVariable literal⟩ ∧
    (declared.execute (.test literal)).machine.conditions = [.int 0] ∧
    (declared.run listing).error = none :=
  ⟨by decide +kernel, by decide +kernel, by decide +kernel, by decide +kernel, by decide +kernel⟩

end Scriptlet
