import Mathlib
import Scriptlet.Proofs.Literals

/-!
# Integers, read and printed

Digits can be any number, and what they write can be too large or have zeros in front.  A value has
64 bits.  Here the reading of integers is compared with what the digits say, and with printing.

* `Numeral.Spells` — a text spells an integer: an optional sign, and digits with their place values.
* `Numeral.readInt?_eq_some_iff` — an integer of any size is read from the texts that spell it.
* `Numeral.spells_ofInt` — the printed form of an integer spells it.
* **`integer_literals_exact`** — as a literal of type `int`, a text is read exactly if it spells an
  integer from `-2^63` up to `2^63 - 1`, and then as that integer.  Without a given type it is read
  alike.  What is printed is read back.
-/

namespace Scriptlet

namespace Numeral

/-- **The texts that spell integers.**  The digits stand with the highest place first. -/
inductive Spells : Text → Int → Prop where
  | unsigned {digits : List Nat} : digits ≠ [] → (∀ d ∈ digits, d < 10) →
      Spells (.ofChars (digits.map Nat.digitChar)) (Nat.ofDigits 10 digits.reverse : Nat)
  | plus {digits : List Nat} : digits ≠ [] → (∀ d ∈ digits, d < 10) →
      Spells (.ofChars ('+' :: digits.map Nat.digitChar)) (Nat.ofDigits 10 digits.reverse : Nat)
  | minus {digits : List Nat} : digits ≠ [] → (∀ d ∈ digits, d < 10) →
      Spells (.ofChars ('-' :: digits.map Nat.digitChar)) (-(Nat.ofDigits 10 digits.reverse : Nat))

/-! ## Reading -/

/-- Digits read from the left have the place values from the right. -/
lemma ofDigits_eq (ds : List Nat) : ofDigits 10 ds = Nat.ofDigits 10 ds.reverse := by
  rw [Nat.ofDigits_eq_foldr, List.foldr_reverse, ofDigits]
  congr 1
  funext n d
  exact Nat.add_comm _ _

lemma splitSign_digits {ds : List Nat} (hds : ∀ d ∈ ds, d < 10) :
    splitSign (Text.ofChars (ds.map Nat.digitChar)).bytes
      = (false, (Text.ofChars (ds.map Nat.digitChar)).bytes) := by
  cases ds with
  | nil => rfl
  | cons d ds =>
      have hd := digitChar_isDigit (hds d (by simp))
      refine splitSign_of_unsigned (head?_ofChars_ne _ 43 (by decide) ?_)
        (head?_ofChars_ne _ 45 (by decide) ?_)
      · exact ne_of_isDigit hd (by decide)
      · exact ne_of_isDigit hd (by decide)

/-- A sign is taken off, if there is one. -/
lemma splitSign_cases (bytes : List UInt8) :
    splitSign bytes = (false, bytes) ∨
      (∃ rest, bytes = 43 :: rest ∧ splitSign bytes = (false, rest)) ∨
      ∃ rest, bytes = 45 :: rest ∧ splitSign bytes = (true, rest) := by
  cases bytes with
  | nil => exact .inl rfl
  | cons b rest =>
      rw [splitSign]
      split_ifs with hplus hminus
      · exact .inr (.inl ⟨rest, by rw [hplus], rfl⟩)
      · exact .inr (.inr ⟨rest, by rw [hminus], rfl⟩)
      · exact .inl rfl

/-- What is behind the sign has to be digits. -/
lemma readInt?_of_splitSign {t : Text} {negative : Bool} {bytes : List UInt8}
    (h : splitSign t.bytes = (negative, bytes)) {n : Int} :
    readInt? t = some n ↔ ∃ ds : List Nat, ds ≠ [] ∧ (∀ d ∈ ds, d < 10) ∧
      bytes = (Text.ofChars (ds.map Nat.digitChar)).bytes ∧
      (if negative then -((Nat.ofDigits 10 ds.reverse : Nat) : Int)
        else (Nat.ofDigits 10 ds.reverse : Nat)) = n := by
  have hread : readInt? t
      = (readNat? bytes).map fun k : Nat => if negative then -(k : Int) else (k : Int) := by
    simp only [readInt?, h]
    cases readNat? bytes <;> rfl
  simp only [hread, Option.map_eq_some_iff, readNat?_eq_some_iff, ofDigits_eq]
  constructor
  · rintro ⟨_, ⟨ds, hne, hds, hbytes, rfl⟩, hn⟩
    exact ⟨ds, hne, hds, hbytes, hn⟩
  · rintro ⟨ds, hne, hds, hbytes, hn⟩
    exact ⟨_, ⟨ds, hne, hds, hbytes, rfl⟩, hn⟩

lemma bytes_signed {sign : Char} {b : UInt8} (hsign : String.utf8EncodeChar sign = [b])
    (cs : List Char) : (Text.ofChars (sign :: cs)).bytes = b :: (Text.ofChars cs).bytes := by
  simp [Text.ofChars, hsign]

/-- **An integer is read from the texts that spell it.** -/
theorem readInt?_eq_some_iff {t : Text} {n : Int} : readInt? t = some n ↔ Spells t n := by
  have hplus (cs : List Char) : (Text.ofChars ('+' :: cs)).bytes = 43 :: (Text.ofChars cs).bytes :=
    bytes_signed (by decide) cs
  have hminus (cs : List Char) : (Text.ofChars ('-' :: cs)).bytes = 45 :: (Text.ofChars cs).bytes :=
    bytes_signed (by decide) cs
  constructor
  · intro h
    obtain ⟨bytes⟩ := t
    rcases splitSign_cases bytes with hsign | ⟨rest, rfl, hsign⟩ | ⟨rest, rfl, hsign⟩
    · obtain ⟨ds, hne, hds, rfl, rfl⟩ := (readInt?_of_splitSign hsign).mp h
      exact .unsigned hne hds
    · obtain ⟨ds, hne, hds, rfl, rfl⟩ := (readInt?_of_splitSign hsign).mp h
      rw [← hplus]
      exact .plus hne hds
    · obtain ⟨ds, hne, hds, rfl, rfl⟩ := (readInt?_of_splitSign hsign).mp h
      rw [← hminus]
      exact .minus hne hds
  · intro h
    cases h with
    | unsigned hne hds =>
        exact (readInt?_of_splitSign (splitSign_digits hds)).mpr ⟨_, hne, hds, rfl, rfl⟩
    | plus hne hds =>
        exact (readInt?_of_splitSign (congrArg splitSign (hplus _))).mpr ⟨_, hne, hds, rfl, rfl⟩
    | minus hne hds =>
        exact (readInt?_of_splitSign (congrArg splitSign (hminus _))).mpr ⟨_, hne, hds, rfl, rfl⟩

/-- An integer of 64 bits is read from the texts that spell it. -/
lemma readInt64?_eq_some_iff_spells {t : Text} {k : Int64} :
    readInt64? t = some k ↔ Spells t k.toInt := by
  rw [readInt64?_eq_some_iff]
  constructor
  · rintro ⟨n, hn, hmin, hmax, rfl⟩
    rw [Int64.toInt_minValue] at hmin
    rw [Int64.toInt_maxValue] at hmax
    rw [Int64.toInt_ofInt_of_le hmin (by omega)]
    exact readInt?_eq_some_iff.mp hn
  · intro h
    exact ⟨k.toInt, readInt?_eq_some_iff.mpr h, k.minValue_le_toInt, k.toInt_le, k.ofInt_toInt⟩

/-- An integer between the limits is read as it is. -/
lemma exists_readInt64?_of_spells {t : Text} {n : Int} (h : Spells t n) (hmin : -2 ^ 63 ≤ n)
    (hmax : n ≤ 2 ^ 63 - 1) : ∃ k, k.toInt = n ∧ readInt64? t = some k := by
  have hn : (Int64.ofInt n).toInt = n := Int64.toInt_ofInt_of_le hmin (by omega)
  refine ⟨.ofInt n, hn, readInt64?_eq_some_iff_spells.mpr ?_⟩
  rw [hn]
  exact h

/-- What is read is what spells an integer between the limits. -/
lemma exists_readInt64?_iff {t : Text} :
    (∃ k, readInt64? t = some k) ↔ ∃ n, Spells t n ∧ -2 ^ 63 ≤ n ∧ n ≤ 2 ^ 63 - 1 := by
  constructor
  · rintro ⟨k, hk⟩
    exact ⟨k.toInt, readInt64?_eq_some_iff_spells.mp hk, k.le_toInt,
      Int.le_sub_one_of_lt k.toInt_lt⟩
  · rintro ⟨n, hn, hmin, hmax⟩
    obtain ⟨k, -, hread⟩ := exists_readInt64?_of_spells hn hmin hmax
    exact ⟨k, hread⟩

/-! ## Printing -/

/-- The printed form of an integer spells it. -/
lemma spells_ofInt (n : Int) : Spells (.ofInt n) n := by
  have hdigits (k : Nat) : ∃ ds : List Nat, ds ≠ [] ∧ (∀ d ∈ ds, d < 10) ∧
      (toString k).toList = ds.map Nat.digitChar ∧ Nat.ofDigits 10 ds.reverse = k := by
    obtain ⟨ds, hds, htext, hvalue⟩ := exists_toDigits k
    refine ⟨ds, ?_, hds, ?_, (ofDigits_eq ds).symm.trans hvalue⟩
    · rintro rfl
      exact Nat.toDigits_ne_nil htext
    · rw [Nat.toString_eq_ofList_toDigits, String.toList_ofList, htext]
  cases n with
  | ofNat k =>
      obtain ⟨ds, hne, hds, htext, hvalue⟩ := hdigits k
      have hspells := Spells.unsigned hne hds
      rw [hvalue, ← htext] at hspells
      exact hspells
  | negSucc k =>
      obtain ⟨ds, hne, hds, htext, hvalue⟩ := hdigits (k + 1)
      have hspells := Spells.minus hne hds
      have hprinted : Text.ofInt (.negSucc k) = .ofChars ('-' :: (toString (k + 1)).toList) := by
        show Text.ofString ("-" ++ toString (k + 1)) = _
        rw [Text.ofString, String.toList_append]
        rfl
      rw [hvalue, ← htext, ← hprinted] at hspells
      exact hspells

end Numeral

/-! ## Literals -/

namespace Value

/-- A literal of type `int` is an integer that fits in 64 bits. -/
lemma read_int (literal : Text) :
    read "int" literal = match Numeral.readInt64? literal with
      | some k => .ok (.int k)
      | none => .error (.badLiteral literal "int") := by
  have htype : ValueType.ofName? "int" = some .int := by decide
  simp only [read, htype, readAs?]
  cases Numeral.readInt64? literal <;> rfl

/-- What spells an integer has neither a point nor letters in it, so no other reader comes first. -/
lemma infer?_of_spells {literal : Text} {n : Int} (h : Numeral.Spells literal n) :
    infer? literal = (Numeral.readInt64? literal).map int := by
  have hdigits {ds : List Nat} (hds : ∀ d ∈ ds, d < 10) (c : Char)
      (hc : c ∈ ds.map Nat.digitChar) : c = '+' ∨ c = '-' ∨ isDigit c :=
    .inr (.inr (isDigit_of_mem_digits hds c hc))
  obtain ⟨cs, rfl, hcs⟩ : ∃ cs, literal = .ofChars cs ∧ ∀ c ∈ cs, c = '+' ∨ c = '-' ∨ isDigit c := by
    cases h with
    | unsigned _ hds => exact ⟨_, rfl, hdigits hds⟩
    | plus _ hds => exact ⟨_, rfl, List.forall_mem_cons.mpr ⟨.inl rfl, hdigits hds⟩⟩
    | minus _ hds => exact ⟨_, rfl, List.forall_mem_cons.mpr ⟨.inr (.inl rfl), hdigits hds⟩⟩
  have hother {c : Char} (hc : c ∈ cs) (hplus : c ≠ '+') (hminus : c ≠ '-')
      (hdigit : isDigit c = false) : False := by
    simpa [hplus, hminus, hdigit] using hcs c hc
  have htrue : cs ≠ "true".toList := by
    rintro rfl
    exact hother (c := 't') (by decide) (by decide) (by decide) (by decide)
  have hfalse : cs ≠ "false".toList := by
    rintro rfl
    exact hother (c := 'f') (by decide) (by decide) (by decide) (by decide)
  have hpoint : '.' ∉ cs := fun hmem => hother hmem (by decide) (by decide) (by decide)
  rw [infer?_ofChars htrue hfalse, if_neg hpoint]

end Value

/-- **Integer literals are read exactly, up to the limits.**  For every text:

* it is read as a literal of type `int` if and only if it spells an integer from `-2^63` up to
  `2^63 - 1`: an optional sign in front of one or more ASCII digits;
* then it is read as that integer, and also without a given type;
* otherwise it is a bad literal.

And every integer of 64 bits is read back from its printed form. -/
theorem integer_literals_exact :
    (∀ literal : Text,
      ((∃ v, Value.read "int" literal = .ok v) ↔
        ∃ n, Numeral.Spells literal n ∧ -2 ^ 63 ≤ n ∧ n ≤ 2 ^ 63 - 1) ∧
      (∀ n, Numeral.Spells literal n → -2 ^ 63 ≤ n → n ≤ 2 ^ 63 - 1 → ∃ k : Int64, k.toInt = n ∧
        Value.read "int" literal = .ok (.int k) ∧ Value.infer? literal = some (.int k)) ∧
      ((¬ ∃ n, Numeral.Spells literal n ∧ -2 ^ 63 ≤ n ∧ n ≤ 2 ^ 63 - 1) →
        Value.read "int" literal = .error (.badLiteral literal "int"))) ∧
    ∀ k : Int64, Value.read "int" (Value.int k).render = .ok (.int k) := by
  refine ⟨fun literal => ⟨?_, ?_, ?_⟩, fun k => ?_⟩
  · rw [← Numeral.exists_readInt64?_iff, Value.read_int]
    cases Numeral.readInt64? literal <;> simp
  · intro n h hmin hmax
    obtain ⟨k, hk, hread⟩ := Numeral.exists_readInt64?_of_spells h hmin hmax
    refine ⟨k, hk, ?_, ?_⟩
    · rw [Value.read_int, hread]
    · rw [Value.infer?_of_spells h, hread]
      rfl
  · intro hnone
    rw [← Numeral.exists_readInt64?_iff, not_exists] at hnone
    rw [Value.read_int, Option.eq_none_iff_forall_ne_some.mpr hnone]
  · have hread : Numeral.readInt64? (Value.int k).render = some k :=
      Numeral.readInt64?_eq_some_iff_spells.mpr (Numeral.spells_ofInt k.toInt)
    rw [Value.read_int, hread]

/-- The least integer, the greatest one with a sign and zeros in front, and the one behind it. -/
theorem integer_literals_exact_limits :
    let least : Text := "-9223372036854775808"
    let greatest : Text := "+0009223372036854775807"
    let beyond : Text := "9223372036854775808"
    (Value.read "int" least = .ok (.int .minValue) ∧ Value.infer? least = some (.int .minValue)) ∧
    (Value.read "int" greatest = .ok (.int .maxValue) ∧
      Value.infer? greatest = some (.int .maxValue)) ∧
    Value.read "int" beyond = .error (.badLiteral beyond "int") ∧
    Value.read "int" (Value.int .minValue).render = .ok (.int .minValue) := by
  intro least greatest beyond
  obtain ⟨hread, hprinted⟩ := integer_literals_exact
  have hleast : Numeral.Spells least (-2 ^ 63) := Numeral.readInt?_eq_some_iff.mp (by decide)
  have hgreatest : Numeral.Spells greatest (2 ^ 63 - 1) :=
    Numeral.readInt?_eq_some_iff.mp (by decide)
  have hbeyond : Numeral.readInt? beyond = some (2 ^ 63) := by decide
  obtain ⟨k, hk, hleast⟩ := (hread least).2.1 _ hleast (by decide) (by decide)
  obtain rfl : k = .minValue := Int64.toInt_inj.mp hk
  obtain ⟨k, hk, hgreatest⟩ := (hread greatest).2.1 _ hgreatest (by decide) (by decide)
  obtain rfl : k = .maxValue := Int64.toInt_inj.mp hk
  refine ⟨hleast, hgreatest, (hread beyond).2.2 ?_, hprinted _⟩
  rintro ⟨n, hn, -, hmax⟩
  have hvalue := Numeral.readInt?_eq_some_iff.mpr hn
  rw [hbeyond, Option.some.injEq] at hvalue
  omega

end Scriptlet
