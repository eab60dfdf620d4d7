import Mathlib
import Scriptlet.Machine.Value
import Scriptlet.Proofs.MaximalMunch

/-!
# What number tokens denote

The scanner knows digits of all scripts and numbers of any size.  The readers of literals know the
ten ASCII digits and numbers that fit.  So a number token need not denote a value.

`Denotes text v` says which texts denote values: the two truth values, digits whose number fits in
64 bits, and digits with a point among them whose number is finite.  Which texts these are, and the
value of those without a point, is said without a reader.  The float nearest to digits with a point
is that of the reader (`Decimal.Written.bits`); the rounding is taken from it as it is.

* `Numeral.mapM_digit?_eq_some_iff` — a list of digits is read from the bytes that write it and from
  no others.  All that is said of readers rests on this.
* `Denotes.infer?` — what denotes a value is read as that value.
* **`IsLexeme.infer?_number`** — a number token is read as nothing else.
* **`IsLexeme.infer?_identifier`** — a name is not read at all.
-/

namespace Scriptlet

/-- The number that digits with a point between them write, rounded as the reader rounds, if it is
finite. -/
def Decimal.pointed? (whole fraction : List Nat) : Option Float :=
  let bits := (Written.mk whole fraction 0).bits decimalBase
  if bits < Binary.infinityBits then some (Float.ofBits bits.toUInt64) else none

/-- **The texts that denote values.** -/
inductive Denotes : List Char → Value → Prop where
  | true : Denotes "true".toList (.bool Bool.true)
  | false : Denotes "false".toList (.bool Bool.false)
  | whole {digits : List Nat} : digits ≠ [] → (∀ d ∈ digits, d < 10) →
      (Numeral.ofDigits 10 digits : Int) ≤ Int64.maxValue.toInt →
      Denotes (digits.map Nat.digitChar) (.int (.ofInt (Numeral.ofDigits 10 digits)))
  | decimal {whole fraction : List Nat} {f : Float} : whole ≠ [] → (∀ d ∈ whole, d < 10) →
      (∀ d ∈ fraction, d < 10) → Decimal.pointed? whole fraction = some f →
      Denotes (whole.map Nat.digitChar ++ '.' :: fraction.map Nat.digitChar) (.float f)

/-! ## Digits -/

namespace Numeral

lemma digit?_eq_some_iff {b : UInt8} {d : Nat} : digit? b = some d ↔ d < 10 ∧ b.toNat = 48 + d := by
  simp only [digit?, Bool.and_eq_true, decide_eq_true_eq]
  split_ifs with h
  · rw [Option.some.injEq]
    omega
  · simp only [false_iff]
    omega

lemma utf8EncodeChar_digitChar {d : Nat} (hd : d < 10) :
    ∃ b, String.utf8EncodeChar d.digitChar = [b] ∧ digit? b = some d := by
  have hall : ∀ d < 10, String.utf8EncodeChar (Nat.digitChar d) = [UInt8.ofNat (48 + d)] ∧
      digit? (UInt8.ofNat (48 + d)) = some d := by decide
  exact ⟨_, hall d hd⟩

/-- The form of a digit is the one byte from which it is read. -/
lemma utf8EncodeChar_of_digit? {b : UInt8} {d : Nat} (hb : digit? b = some d) :
    String.utf8EncodeChar d.digitChar = [b] := by
  obtain ⟨hd, hbyte⟩ := digit?_eq_some_iff.mp hb
  obtain ⟨b', hform, hb'⟩ := utf8EncodeChar_digitChar hd
  obtain rfl : b' = b := UInt8.toNat_inj.mp ((digit?_eq_some_iff.mp hb').2.trans hbyte.symm)
  exact hform

/-- **Digits are read from the bytes that write them**, and from no others. -/
theorem mapM_digit?_eq_some_iff {bytes : List UInt8} {ds : List Nat} :
    bytes.mapM digit? = some ds ↔
      (∀ d ∈ ds, d < 10) ∧ bytes = (Text.ofChars (ds.map Nat.digitChar)).bytes := by
  constructor
  · intro h
    induction bytes generalizing ds with
    | nil =>
        obtain rfl : [] = ds := by simpa [pure] using h
        exact ⟨by simp, rfl⟩
    | cons b bytes ih =>
        rw [List.mapM_cons] at h
        obtain ⟨d, hd, h⟩ := Option.bind_eq_some_iff.mp h
        obtain ⟨rest, hrest, heq⟩ := Option.bind_eq_some_iff.mp h
        obtain rfl : d :: rest = ds := by simpa [pure] using heq
        obtain ⟨hdigits, rfl⟩ := ih hrest
        refine ⟨List.forall_mem_cons.mpr ⟨(digit?_eq_some_iff.mp hd).1, hdigits⟩, ?_⟩
        simp [Text.ofChars, utf8EncodeChar_of_digit? hd]
  · rintro ⟨hdigits, rfl⟩
    induction ds with
    | nil => rfl
    | cons d ds ih =>
        obtain ⟨hd, hrest⟩ := List.forall_mem_cons.mp hdigits
        obtain ⟨b, hform, hb⟩ := utf8EncodeChar_digitChar hd
        have hbytes : (Text.ofChars ((d :: ds).map Nat.digitChar)).bytes
            = b :: (Text.ofChars (ds.map Nat.digitChar)).bytes := by
          simp [Text.ofChars, hform]
        rw [hbytes]
        simp [hb, ih hrest]

/-- The same for characters. -/
lemma mapM_digit?_ofChars {cs : List Char} {ds : List Nat} :
    (Text.ofChars cs).bytes.mapM digit? = some ds ↔
      (∀ d ∈ ds, d < 10) ∧ cs = ds.map Nat.digitChar := by
  rw [mapM_digit?_eq_some_iff, ← Text.mk.injEq, ← Text.ofChars_injective.eq_iff]

/-! ## Whole numbers -/

lemma splitSign_of_unsigned {bytes : List UInt8} (hplus : bytes.head? ≠ some 43)
    (hminus : bytes.head? ≠ some 45) : splitSign bytes = (false, bytes) := by
  cases bytes with
  | nil => rfl
  | cons b rest =>
      simp only [List.head?_cons, ne_eq, Option.some.injEq] at hplus hminus
      rw [splitSign, if_neg hplus, if_neg hminus]

/-- A text starts with a byte below 128 only if it starts with the character of that byte. -/
lemma head?_ofChars_ne {c : Char} (cs : List Char) (b : UInt8) (hb : b < 128)
    (hc : c ≠ Char.ofNat b.toNat) : (Text.ofChars (c :: cs)).bytes.head? ≠ some b := by
  intro h
  obtain ⟨b', bs, hform, -⟩ := Text.exists_cons_utf8EncodeChar c
  have hbytes : (Text.ofChars (c :: cs)).bytes
      = String.utf8EncodeChar c ++ (Text.ofChars cs).bytes := rfl
  rw [hbytes, hform, List.cons_append, List.head?_cons, Option.some.injEq] at h
  exact hc ((Text.mem_utf8EncodeChar_iff hb).mp (by simp [hform, h]))

/-- A number is read from one or more digits. -/
lemma readNat?_eq_some_iff {bytes : List UInt8} {n : Nat} :
    readNat? bytes = some n ↔ ∃ ds : List Nat, ds ≠ [] ∧ (∀ d ∈ ds, d < 10) ∧
      bytes = (Text.ofChars (ds.map Nat.digitChar)).bytes ∧ ofDigits 10 ds = n := by
  cases bytes with
  | nil =>
      simp only [readNat?, reduceCtorEq, false_iff]
      rintro ⟨ds, hne, hdigits, hbytes, -⟩
      have hnone := mapM_digit?_eq_some_iff.mpr ⟨hdigits, hbytes⟩
      exact hne (by simpa [pure] using hnone.symm)
  | cons b bytes =>
      simp only [readNat?, Option.map_eq_some_iff, mapM_digit?_eq_some_iff]
      constructor
      · rintro ⟨ds, ⟨hdigits, hbytes⟩, hn⟩
        refine ⟨ds, ?_, hdigits, hbytes, hn⟩
        rintro rfl
        simp [Text.ofChars] at hbytes
      · rintro ⟨ds, -, hdigits, hbytes, hn⟩
        exact ⟨ds, ⟨hdigits, hbytes⟩, hn⟩

lemma readNat?_ofChars {c : Char} {cs : List Char} {n : Nat} :
    readNat? (Text.ofChars (c :: cs)).bytes = some n ↔
      ∃ ds : List Nat, (∀ d ∈ ds, d < 10) ∧ c :: cs = ds.map Nat.digitChar ∧ ofDigits 10 ds = n := by
  rw [readNat?_eq_some_iff]
  constructor
  · rintro ⟨ds, -, hdigits, hbytes, hn⟩
    exact ⟨ds, hdigits, Text.ofChars_injective (congrArg Text.mk hbytes), hn⟩
  · rintro ⟨ds, hdigits, hcs, hn⟩
    refine ⟨ds, ?_, hdigits, by rw [hcs], hn⟩
    rintro rfl
    simp at hcs

/-- The digits that a number is printed with write that number. -/
lemma exists_toDigits (n : Nat) : ∃ ds : List Nat, (∀ d ∈ ds, d < 10) ∧
    Nat.toDigits 10 n = ds.map Nat.digitChar ∧ ofDigits 10 ds = n := by
  induction n using Nat.strong_induction_on with
  | _ n ih =>
    by_cases hn : n < 10
    · refine ⟨[n], by simpa using hn, Nat.toDigits_of_lt_base hn, ?_⟩
      simp [ofDigits]
    · have hlast : n % 10 < 10 := Nat.mod_lt n (by decide)
      obtain ⟨ds, hdigits, htext, hvalue⟩ := ih (n / 10) (by omega)
      refine ⟨ds ++ [n % 10], ?_, ?_, ?_⟩
      · intro d hd
        rcases List.mem_append.mp hd with hd | hd
        · exact hdigits d hd
        · rw [List.mem_singleton.mp hd]
          exact hlast
      · rw [Nat.toDigits_of_base_le (by decide) (by omega), htext]
        simp
      · rw [ofDigits, List.foldl_append]
        show 10 * ofDigits 10 ds + n % 10 = n
        omega

/-- A printed number is read back. -/
lemma readNat?_ofNat (n : Nat) : readNat? (Text.ofNat n).bytes = some n := by
  obtain ⟨ds, hdigits, htext, hvalue⟩ := exists_toDigits n
  have hchars : Text.ofNat n = .ofChars (Nat.toDigits 10 n) := by
    rw [Text.ofNat, Text.ofString, Nat.toString_eq_ofList_toDigits, String.toList_ofList]
  obtain ⟨c, cs, hcons⟩ := List.exists_cons_of_ne_nil (Nat.toDigits_ne_nil (b := 10) (n := n))
  rw [hchars, hcons]
  exact readNat?_ofChars.mpr ⟨ds, hdigits, hcons ▸ htext, hvalue⟩

/-- What is read as a number is made of digits. -/
lemma digits_of_readNat? {bytes : List UInt8} {n : Nat} (h : readNat? bytes = some n) :
    bytes ≠ [] ∧ ∀ b ∈ bytes, 48 ≤ b.toNat ∧ b.toNat ≤ 57 := by
  refine ⟨by rintro rfl; simp [readNat?] at h, fun b hb => ?_⟩
  obtain ⟨ds, -, hdigits, rfl, -⟩ := readNat?_eq_some_iff.mp h
  obtain ⟨c, hc, hmem⟩ := List.mem_flatMap.mp hb
  obtain ⟨d, hd, rfl⟩ := List.mem_map.mp hc
  obtain ⟨b', hform, hb'⟩ := utf8EncodeChar_digitChar (hdigits d hd)
  obtain rfl : b = b' := by simpa [hform] using hmem
  have hbyte := digit?_eq_some_iff.mp hb'
  omega

/-- Without a sign, an integer is written by its digits. -/
lemma readInt?_ofChars {c : Char} {cs : List Char} (hplus : c ≠ '+') (hminus : c ≠ '-') {n : Int} :
    readInt? (Text.ofChars (c :: cs)) = some n ↔
      ∃ ds : List Nat, (∀ d ∈ ds, d < 10) ∧ c :: cs = ds.map Nat.digitChar ∧
        (ofDigits 10 ds : Int) = n := by
  have hsign := splitSign_of_unsigned (head?_ofChars_ne cs 43 (by decide) hplus)
    (head?_ofChars_ne cs 45 (by decide) hminus)
  have hread : readInt? (Text.ofChars (c :: cs))
      = (readNat? (Text.ofChars (c :: cs)).bytes).map Int.ofNat := by
    simp only [readInt?, hsign]
    cases readNat? (Text.ofChars (c :: cs)).bytes <;> rfl
  rw [hread, Option.map_eq_some_iff]
  constructor
  · rintro ⟨k, hk, hn⟩
    obtain ⟨ds, hdigits, hcs, rfl⟩ := readNat?_ofChars.mp hk
    exact ⟨ds, hdigits, hcs, hn⟩
  · rintro ⟨ds, hdigits, hcs, hn⟩
    exact ⟨_, readNat?_ofChars.mpr ⟨ds, hdigits, hcs, rfl⟩, hn⟩

lemma readInt64?_eq_some_iff {t : Text} {n : Int64} :
    readInt64? t = some n ↔ ∃ k, readInt? t = some k ∧ Int64.minValue.toInt ≤ k ∧
      k ≤ Int64.maxValue.toInt ∧ Int64.ofInt k = n := by
  unfold readInt64?
  cases readInt? t with
  | none => simp
  | some k =>
      simp only [Bool.and_eq_true, decide_eq_true_eq, Option.some.injEq, exists_eq_left']
      split_ifs with h
      · simp only [Option.some.injEq, h, true_and]
      · simp only [false_iff]
        rintro ⟨hmin, hmax, -⟩
        exact h ⟨hmin, hmax⟩

end Numeral

/-! ## Numbers with a point -/

namespace Decimal

/-- The bytes of digits of any script: ASCII digits, and parts of longer forms. -/
def OfDigit (b : UInt8) : Prop :=
  (Numeral.digit? b).isSome ∨ 128 ≤ b.toNat

/-- The bytes of numbers with a point. -/
def OfNumber (b : UInt8) : Prop :=
  b = 46 ∨ OfDigit b

lemma OfDigit.range {b : UInt8} (h : OfDigit b) : 48 ≤ b.toNat ∧ b.toNat ≤ 57 ∨ 128 ≤ b.toNat := by
  rcases h with h | h
  · obtain ⟨d, hd⟩ := Option.isSome_iff_exists.mp h
    have hbyte := Numeral.digit?_eq_some_iff.mp hd
    omega
  · exact .inr h

lemma OfNumber.range {b : UInt8} (h : OfNumber b) :
    b.toNat = 46 ∨ 48 ≤ b.toNat ∧ b.toNat ≤ 57 ∨ 128 ≤ b.toNat := by
  rcases h with rfl | h
  · exact .inl rfl
  · exact .inr h.range

lemma OfNumber.ne {b : UInt8} (h : OfNumber b) {k : UInt8} (hk : k.toNat < 128)
    (hpoint : k.toNat ≠ 46) (hdigit : k.toNat < 48 ∨ 57 < k.toNat) : b ≠ k := by
  rintro rfl
  have hrange := h.range
  omega

lemma lower_eq {b : UInt8} (h : OfNumber b) : lower b = b := by
  have hrange := h.range
  rw [lower, if_neg]
  simp only [Bool.and_eq_true, decide_eq_true_eq]
  omega

/-- The bytes of digits are those of the characters that are digits. -/
lemma ofDigit_of_mem {cs : List Char} (hcs : ∀ c ∈ cs, isDigit c) :
    ∀ b ∈ (Text.ofChars cs).bytes, OfDigit b := by
  intro b hb
  obtain ⟨c, hc, hmem⟩ := List.mem_flatMap.mp hb
  by_cases hascii : b.toNat < 128
  · have hall : ∀ n < 128, isDigit (Char.ofNat n) = true → 48 ≤ n ∧ n ≤ 57 := by decide
    have hdigit := hcs c hc
    rw [(Text.mem_utf8EncodeChar_iff hascii).mp hmem] at hdigit
    obtain ⟨hlow, hhigh⟩ := hall b.toNat hascii hdigit
    refine .inl (Option.isSome_iff_exists.mpr ⟨b.toNat - 48, ?_⟩)
    exact Numeral.digit?_eq_some_iff.mpr ⟨by omega, by omega⟩
  · exact .inr (by omega)

section Number

variable {bytes : List UInt8} (h : ∀ b ∈ bytes, OfNumber b)
include h

lemma not_isWord (hne : bytes ≠ []) (word : Text)
    (hword : word.bytes.head?.all fun b => 57 < b.toNat && b.toNat < 128) :
    isWord bytes word = false := by
  obtain ⟨b, rest, rfl⟩ := List.exists_cons_of_ne_nil hne
  refine decide_eq_false fun heq => ?_
  have hb := h b (by simp)
  have hrange := hb.range
  rw [← heq, List.map_cons, lower_eq hb, List.head?_cons, Option.all_some, Bool.and_eq_true,
    decide_eq_true_eq, decide_eq_true_eq] at hword
  omega

lemma readMagnitude?_eq : readMagnitude? bytes = decimalBase.readSeparated? false bytes := by
  unfold readMagnitude?
  split
  · next zero x rest =>
      have hx : lower x ≠ 120 := by
        rw [lower_eq (h x (by simp))]
        exact (h x (by simp)).ne (by decide) (by decide) (by decide)
      simp [hx]
  · rfl

lemma separatorsFit_eq (afterDigit : Bool) :
    decimalBase.separatorsFit afterDigit bytes = true := by
  induction bytes generalizing afterDigit with
  | nil => rfl
  | cons b rest ih =>
      have hb : b ≠ 95 := (h b (by simp)).ne (by decide) (by decide) (by decide)
      rw [Base.separatorsFit, if_neg hb]
      exact ih (fun b hb => h b (by simp [hb])) _

/-- The sign, the words and the underscores that the reader knows play no part. -/
lemma read?_eq (hne : bytes ≠ []) :
    read? ⟨bytes⟩ = (decimalBase.readBits? bytes).map (Float.ofBits ·.toUInt64) := by
  obtain ⟨b, rest, rfl⟩ := List.exists_cons_of_ne_nil hne
  have hb := h b (by simp)
  have hsign : Numeral.splitSign (b :: rest) = (false, b :: rest) := by
    apply Numeral.splitSign_of_unsigned <;> rw [List.head?_cons, ne_eq, Option.some.injEq]
    · exact hb.ne (by decide) (by decide) (by decide)
    · exact hb.ne (by decide) (by decide) (by decide)
  have hfilter : (b :: rest).filter (· ≠ 95) = b :: rest := by
    refine List.filter_eq_self.mpr fun b hb => decide_eq_true ?_
    exact (h b hb).ne (by decide) (by decide) (by decide)
  simp only [read?, not_isWord h hne "nan" (by decide), hsign, bits?,
    not_isWord h hne "inf" (by decide), not_isWord h hne "infinity" (by decide),
    readMagnitude?_eq h, Base.readSeparated?, separatorsFit_eq h, hfilter, Bool.or_self,
    Bool.false_eq_true, if_false, if_true]

end Number

lemma decimalBase_digit? (b : UInt8) : decimalBase.digit? b = Numeral.digit? b := by
  unfold Base.digit?
  cases Numeral.digit? b <;> rfl

/-- Behind digits, a byte beyond ASCII starts no exponent. -/
lemma exponent?_beyond {b : UInt8} (hb : 128 ≤ b.toNat) (rest : List UInt8) :
    decimalBase.exponent? (b :: rest) = none := by
  have hmark : lower b ≠ decimalBase.exponentMark := by
    rw [lower_eq (.inr (.inr hb))]
    rintro rfl
    exact absurd hb (by decide)
  simp [Base.exponent?, hmark]

/-- Bytes of digits are all ASCII digits, or the ASCII digits at their front end at a byte beyond. -/
lemma digits_or_beyond {l : List UInt8} (h : ∀ b ∈ l, OfDigit b) :
    (∃ ds, l.mapM Numeral.digit? = some ds ∧ l.filterMap decimalBase.digit? = ds ∧
        ∀ b ∈ l, decimalBase.isDigit b) ∨
      l.mapM Numeral.digit? = none ∧ ∃ front b rest, l = front ++ b :: rest ∧
        (∀ b ∈ front, decimalBase.isDigit b) ∧ 128 ≤ b.toNat := by
  induction l with
  | nil => exact .inl ⟨[], by simp⟩
  | cons b l ih =>
      obtain ⟨hb, hl⟩ := List.forall_mem_cons.mp h
      cases hdigit : Numeral.digit? b with
      | none =>
          refine .inr ⟨by simp [hdigit], [], b, l, rfl, by simp, ?_⟩
          exact hb.resolve_left (by simp [hdigit])
      | some d =>
          have hisDigit : decimalBase.isDigit b := by
            rw [Base.isDigit, decimalBase_digit?, hdigit]
            rfl
          rcases ih hl with ⟨ds, hds, hfilter, hall⟩ | ⟨hnone, front, b', rest, rfl, hfront, hb'⟩
          · refine .inl ⟨d :: ds, by simp [hdigit, hds], ?_, ?_⟩
            · rw [List.filterMap_cons_some (by rw [decimalBase_digit?, hdigit]), hfilter]
            · exact List.forall_mem_cons.mpr ⟨hisDigit, hall⟩
          · refine .inr ⟨by simp [hdigit, hnone], b :: front, b', rest, rfl, ?_, hb'⟩
            exact List.forall_mem_cons.mpr ⟨hisDigit, hfront⟩

lemma span_isDigit {l : List UInt8} (hl : ∀ b ∈ l, decimalBase.isDigit b) (rest : List UInt8)
    (hrest : ∀ b ∈ rest.head?, decimalBase.isDigit b = false) :
    (l ++ rest).span decimalBase.isDigit = (l, rest) := by
  rw [List.span_eq_takeWhile_dropWhile, List.takeWhile_append_of_pos hl,
    List.dropWhile_append_of_pos hl]
  cases rest with
  | nil => simp
  | cons b rest => simp [hrest b rfl]

lemma isDigit_beyond {b : UInt8} (hb : 128 ≤ b.toNat) : decimalBase.isDigit b = false := by
  rw [Base.isDigit, decimalBase_digit?, Option.isSome_eq_false_iff, Option.isNone_iff_eq_none,
    Option.eq_none_iff_forall_ne_some]
  intro d hd
  have hbyte := Numeral.digit?_eq_some_iff.mp hd
  omega

/-- What is written, from the three parts that the reader finds. -/
lemma written?_eq {bytes whole rest fraction after : List UInt8}
    (hwhole : bytes.span decimalBase.isDigit = (whole, rest))
    (hfraction : decimalBase.fraction rest = (fraction, after)) (hne : whole ≠ []) :
    decimalBase.written? bytes = (decimalBase.exponent? after).map
      (⟨whole.filterMap decimalBase.digit?, fraction.filterMap decimalBase.digit?, ·⟩) := by
  simp only [Base.written?, hwhole, hfraction]
  rw [if_neg]
  simp [hne]

lemma fraction_point (rest : List UInt8) :
    decimalBase.fraction (46 :: rest) = rest.span decimalBase.isDigit := rfl

/-- Digits that end at a byte beyond ASCII are no number. -/
lemma written?_beyond {front : List UInt8} {b : UInt8} (hfront : ∀ b ∈ front, decimalBase.isDigit b)
    (hb : 128 ≤ b.toNat) (rest : List UInt8) :
    decimalBase.written? (front ++ b :: rest) = none := by
  have hspan := span_isDigit hfront (b :: rest) (by simpa using isDigit_beyond hb)
  have hpoint : b ≠ 46 := by
    rintro rfl
    exact absurd hb (by decide)
  simp only [Base.written?, hspan, Base.fraction, hpoint, if_false, exponent?_beyond hb,
    Option.map_none, ite_self]

/-- What is written with a point is the digits before it and those behind it. -/
lemma written?_point {whole fraction : List UInt8} (hwhole : ∀ b ∈ whole, OfDigit b)
    (hfraction : ∀ b ∈ fraction, OfDigit b) (hne : whole ≠ []) :
    decimalBase.written? (whole ++ 46 :: fraction)
      = (whole.mapM Numeral.digit?).bind fun ws =>
          (fraction.mapM Numeral.digit?).map fun fs => ⟨ws, fs, 0⟩ := by
  rcases digits_or_beyond hwhole with ⟨ws, hws, hfilter, hall⟩ |
    ⟨hnone, front, b, rest, rfl, hfront, hb⟩
  · have hspan := span_isDigit hall (46 :: fraction) (by simp; decide)
    rcases digits_or_beyond hfraction with ⟨fs, hfs, hfilter', hall'⟩ |
      ⟨hnone, front, b, rest, rfl, hfront, hb⟩
    · have hfraction' : decimalBase.fraction (46 :: fraction) = (fraction, []) := by
        have hspan' := span_isDigit hall' [] (by simp)
        rwa [List.append_nil, ← fraction_point] at hspan'
      rw [written?_eq hspan hfraction' hne, hfilter, hfilter', hws, hfs]
      rfl
    · have hfraction' : decimalBase.fraction (46 :: (front ++ b :: rest)) = (front, b :: rest) :=
        span_isDigit hfront (b :: rest) (by simpa using isDigit_beyond hb)
      rw [written?_eq hspan hfraction' hne, exponent?_beyond hb, hws, hnone]
      rfl
  · rw [List.append_assoc, List.cons_append, written?_beyond hfront hb, hnone]
    rfl

/-- **A number with a point is read from its digits.** -/
theorem read?_point {whole fraction : List Char} (hne : whole ≠ []) (hwhole : ∀ c ∈ whole, isDigit c)
    (hfraction : ∀ c ∈ fraction, isDigit c) {f : Float} :
    read? (Text.ofChars (whole ++ '.' :: fraction)) = some f ↔
      ∃ ws fs : List Nat, (∀ d ∈ ws, d < 10) ∧ (∀ d ∈ fs, d < 10) ∧
        whole = ws.map Nat.digitChar ∧ fraction = fs.map Nat.digitChar ∧
        pointed? ws fs = some f := by
  have hbytes : Text.ofChars (whole ++ '.' :: fraction)
      = ⟨(Text.ofChars whole).bytes ++ 46 :: (Text.ofChars fraction).bytes⟩ := by
    rw [Text.ofChars, List.flatMap_append]
    rfl
  have hwhole' := ofDigit_of_mem hwhole
  have hfraction' := ofDigit_of_mem hfraction
  have hnumber : ∀ b ∈ (Text.ofChars whole).bytes ++ 46 :: (Text.ofChars fraction).bytes,
      OfNumber b := by
    intro b hb
    rcases List.mem_append.mp hb with hb | hb
    · exact .inr (hwhole' b hb)
    rcases List.mem_cons.mp hb with rfl | hb
    · exact .inl rfl
    · exact .inr (hfraction' b hb)
  have hne' : (Text.ofChars whole).bytes ≠ [] := by
    obtain ⟨c, cs, rfl⟩ := List.exists_cons_of_ne_nil hne
    obtain ⟨b, bs, hform, -⟩ := Text.exists_cons_utf8EncodeChar c
    simp [Text.ofChars, hform]
  have hread : read? (Text.ofChars (whole ++ '.' :: fraction))
      = ((Text.ofChars whole).bytes.mapM Numeral.digit?).bind fun ws =>
          ((Text.ofChars fraction).bytes.mapM Numeral.digit?).bind fun fs => pointed? ws fs := by
    rw [hbytes, read?_eq hnumber (by simp), Base.readBits?, written?_point hwhole' hfraction' hne']
    cases (Text.ofChars whole).bytes.mapM Numeral.digit? with
    | none => rfl
    | some ws =>
        cases (Text.ofChars fraction).bytes.mapM Numeral.digit? with
        | none => rfl
        | some fs =>
            simp only [Option.bind_some, Option.map_some, pointed?]
            split_ifs <;> rfl
  simp only [hread, Option.bind_eq_some_iff, Numeral.mapM_digit?_ofChars]
  constructor
  · rintro ⟨ws, ⟨hws, hcs⟩, fs, ⟨hfs, hcs'⟩, hf⟩
    exact ⟨ws, fs, hws, hfs, hcs, hcs', hf⟩
  · rintro ⟨ws, fs, hws, hfs, hcs, hcs', hf⟩
    exact ⟨ws, ⟨hws, hcs⟩, fs, ⟨hfs, hcs'⟩, hf⟩

end Decimal

/-! ## Literals that bring their own type -/

namespace Value

lemma readBool?_ofChars {cs : List Char} (htrue : cs ≠ "true".toList)
    (hfalse : cs ≠ "false".toList) : readBool? (Text.ofChars cs) = none := by
  have htrue' : Text.ofChars cs ≠ Text.ofString "true" := Text.ofChars_injective.ne htrue
  have hfalse' : Text.ofChars cs ≠ Text.ofString "false" := Text.ofChars_injective.ne hfalse
  rw [readBool?, if_neg htrue', if_neg hfalse']

lemma point_mem_iff {cs : List Char} : 46 ∈ (Text.ofChars cs).bytes ↔ '.' ∈ cs := by
  simp only [Text.ofChars, List.mem_flatMap]
  constructor
  · rintro ⟨c, hc, hmem⟩
    rwa [(Text.mem_utf8EncodeChar_iff (by decide)).mp hmem] at hc
  · intro hc
    exact ⟨'.', hc, by decide⟩

/-- What is not a truth value is read as a number, by whether it has a point. -/
lemma infer?_ofChars {cs : List Char} (htrue : cs ≠ "true".toList) (hfalse : cs ≠ "false".toList) :
    infer? (Text.ofChars cs) = if '.' ∈ cs then (Decimal.read? (Text.ofChars cs)).map float
      else (Numeral.readInt64? (Text.ofChars cs)).map int := by
  simp only [infer?, readBool?_ofChars htrue hfalse, point_mem_iff]
  split_ifs <;> rfl

end Value

lemma ne_of_isDigit {c d : Char} (hc : isDigit c) (hd : isDigit d = false) : c ≠ d := by
  rintro rfl
  simp [hd] at hc

lemma cons_ne_of_isDigit {c : Char} {cs word : List Char} (hc : isDigit c)
    (hword : word.head?.all fun d => !isDigit d) : c :: cs ≠ word := by
  rintro rfl
  simp [hc] at hword

lemma digitChar_isDigit {d : Nat} (hd : d < 10) : isDigit d.digitChar := by
  have hall : ∀ d < 10, isDigit (Nat.digitChar d) := by decide
  exact hall d hd

lemma isDigit_of_mem_digits {ds : List Nat} (hds : ∀ d ∈ ds, d < 10) :
    ∀ c ∈ ds.map Nat.digitChar, isDigit c := by
  intro c hc
  obtain ⟨d, hd, rfl⟩ := List.mem_map.mp hc
  exact digitChar_isDigit (hds d hd)

section Digits

variable {c : Char} {cs : List Char} (hc : isDigit c)
include hc

/-- Digits alone are read as a whole number that fits in 64 bits. -/
lemma infer?_whole (hcs : ∀ d ∈ cs, isDigit d) {v : Value} :
    Value.infer? (Text.ofChars (c :: cs)) = some v ↔
      ∃ ds : List Nat, (∀ d ∈ ds, d < 10) ∧ c :: cs = ds.map Nat.digitChar ∧
        (Numeral.ofDigits 10 ds : Int) ≤ Int64.maxValue.toInt ∧
        v = .int (.ofInt (Numeral.ofDigits 10 ds)) := by
  have hpoint : '.' ∉ c :: cs := by
    intro hmem
    rcases List.mem_cons.mp hmem with rfl | hmem
    · exact absurd hc (by decide)
    · exact absurd (hcs _ hmem) (by decide)
  rw [Value.infer?_ofChars (cons_ne_of_isDigit hc (by decide)) (cons_ne_of_isDigit hc (by decide)),
    if_neg hpoint]
  simp only [Option.map_eq_some_iff, Numeral.readInt64?_eq_some_iff,
    Numeral.readInt?_ofChars (ne_of_isDigit hc (by decide)) (ne_of_isDigit hc (by decide))]
  constructor
  · rintro ⟨n, ⟨k, ⟨ds, hds, htext, rfl⟩, -, hmax, rfl⟩, rfl⟩
    exact ⟨ds, hds, htext, hmax, rfl⟩
  · rintro ⟨ds, hds, htext, hmax, rfl⟩
    refine ⟨_, ⟨_, ⟨ds, hds, htext, rfl⟩, ?_, hmax, rfl⟩, rfl⟩
    exact (by decide : Int64.minValue.toInt ≤ 0).trans (Int.natCast_nonneg _)

/-- Digits with a point among them are read as a number that is finite. -/
lemma infer?_decimal (hcs : ∀ d ∈ cs, isDigit d) {fraction : List Char}
    (hfraction : ∀ d ∈ fraction, isDigit d) {v : Value} :
    Value.infer? (Text.ofChars (c :: (cs ++ '.' :: fraction))) = some v ↔
      ∃ ws fs : List Nat, (∀ d ∈ ws, d < 10) ∧ (∀ d ∈ fs, d < 10) ∧ c :: cs = ws.map Nat.digitChar ∧
        fraction = fs.map Nat.digitChar ∧ ∃ f, Decimal.pointed? ws fs = some f ∧ v = .float f := by
  rw [Value.infer?_ofChars (cons_ne_of_isDigit hc (by decide)) (cons_ne_of_isDigit hc (by decide)),
    if_pos (by simp), ← List.cons_append]
  simp only [Option.map_eq_some_iff,
    Decimal.read?_point (List.cons_ne_nil c cs) (List.forall_mem_cons.mpr ⟨hc, hcs⟩) hfraction]
  constructor
  · rintro ⟨f, ⟨ws, fs, hws, hfs, hwhole, hfraction, hf⟩, rfl⟩
    exact ⟨ws, fs, hws, hfs, hwhole, hfraction, f, hf, rfl⟩
  · rintro ⟨ws, fs, hws, hfs, hwhole, hfraction, f, hf, rfl⟩
    exact ⟨f, ⟨ws, fs, hws, hfs, hwhole, hfraction, hf⟩, rfl⟩

end Digits

/-- What denotes a value is read as that value. -/
lemma Denotes.infer? {text : List Char} {v : Value} (h : Denotes text v) :
    Value.infer? (Text.ofChars text) = some v := by
  cases h with
  | true => rfl
  | false => rfl
  | @whole ds hne hds hmax =>
      obtain ⟨d, ds, rfl⟩ := List.exists_cons_of_ne_nil hne
      obtain ⟨hd, hrest⟩ := List.forall_mem_cons.mp (isDigit_of_mem_digits hds)
      exact (infer?_whole hd hrest).mpr ⟨_, hds, rfl, hmax, rfl⟩
  | @decimal ws fs f hne hws hfs hf =>
      obtain ⟨d, ws, rfl⟩ := List.exists_cons_of_ne_nil hne
      obtain ⟨hd, hrest⟩ := List.forall_mem_cons.mp (isDigit_of_mem_digits hws)
      exact (infer?_decimal hd hrest (isDigit_of_mem_digits hfs)).mpr
        ⟨_, _, hws, hfs, rfl, rfl, f, hf, rfl⟩

/-! ## Tokens -/

namespace Lexeme

/-- An integer starts with a digit or a sign, and a word with neither. -/
lemma readInt64?_word {c : Char} (hc : startsWord c) (more : List Char) :
    Numeral.readInt64? (Text.ofChars (c :: more)) = none := by
  refine Option.eq_none_iff_forall_ne_some.mpr fun n hn => ?_
  obtain ⟨k, hk, -⟩ := Numeral.readInt64?_eq_some_iff.mp hn
  have hplus : c ≠ '+' := by
    rintro rfl
    exact absurd hc (by decide)
  have hminus : c ≠ '-' := by
    rintro rfl
    exact absurd hc (by decide)
  obtain ⟨ds, hds, htext, -⟩ := (Numeral.readInt?_ofChars hplus hminus).mp hk
  cases ds with
  | nil => simp at htext
  | cons d ds =>
      have hdigit := digitChar_isDigit (hds d (by simp))
      rw [← (List.cons.inj htext).1] at hdigit
      rcases class_of_startsWord hc with hclass | hclass <;> simp [isDigit, hclass] at hdigit

end Lexeme

namespace IsLexeme

variable {text rest : List Char}

/-- **A number token is read as the value that it denotes**, and not at all if it denotes none. -/
theorem infer?_number (h : IsLexeme (.token .number) text rest) {v : Value} :
    Value.infer? (Text.ofChars text) = some v ↔ Denotes text v := by
  refine ⟨fun hv => ?_, Denotes.infer?⟩
  generalize hshape : Shape.token .number = shape at h
  cases h with
  | blank => cases hshape
  | comment => cases hshape
  | @word c more _ kind hc hmore hkind =>
      obtain rfl := Shape.token.inj hshape
      cases hkind with | literal hword
      simp only [Lexeme.literalWords, List.mem_cons, List.not_mem_nil, or_false] at hword
      rcases hword with hword | hword
      · have htext : c :: more = "true".toList := by rw [← hword, String.toList_ofList]
        rw [htext] at hv ⊢
        obtain rfl := Option.some.inj (Denotes.true.infer?.symm.trans hv)
        exact .true
      · have htext : c :: more = "false".toList := by rw [← hword, String.toList_ofList]
        rw [htext] at hv ⊢
        obtain rfl := Option.some.inj (Denotes.false.infer?.symm.trans hv)
        exact .false
  | whole hc hmore =>
      obtain ⟨ds, hds, htext, hmax, rfl⟩ := (infer?_whole hc hmore).mp hv
      rw [htext]
      refine .whole ?_ hds hmax
      rintro rfl
      simp at htext
  | decimal hc hmore _ hfraction =>
      obtain ⟨ws, fs, hws, hfs, hwhole, rfl, f, hf, rfl⟩ := (infer?_decimal hc hmore hfraction).mp hv
      rw [← List.cons_append, hwhole]
      refine .decimal ?_ hws hfs hf
      rintro rfl
      simp at hwhole
  | mark hmark =>
      have hnone : ∀ m ∈ Lexeme.marks, m.2 ≠ .number := by decide
      exact absurd (Shape.token.inj hshape).symm (hnone _ hmark)

/-- **A name is not read as a value.** -/
theorem infer?_identifier (h : IsLexeme (.token .identifier) text rest) :
    Value.infer? (Text.ofChars text) = none := by
  generalize hshape : Shape.token .identifier = shape at h
  cases h with
  | blank => cases hshape
  | comment => cases hshape
  | whole => cases hshape
  | decimal => cases hshape
  | mark hmark =>
      have hnone : ∀ m ∈ Lexeme.marks, m.2 ≠ .identifier := by decide
      exact absurd (Shape.token.inj hshape).symm (hnone _ hmark)
  | @word c more _ kind hc hmore hkind =>
      obtain rfl := Shape.token.inj hshape
      cases hkind with | name _ _ hword
      have hne (word : String) (hmem : word ∈ Lexeme.literalWords) : c :: more ≠ word.toList := by
        intro htext
        rw [htext, String.ofList_toList] at hword
        exact hword hmem
      have hpoint : '.' ∉ c :: more := by
        intro hmem
        rcases List.mem_cons.mp hmem with rfl | hmem
        · exact absurd hc (by decide)
        · exact absurd (hmore _ hmem) (by decide)
      rw [Value.infer?_ofChars (hne "true" (by decide)) (hne "false" (by decide)), if_neg hpoint,
        Lexeme.readInt64?_word (Lexeme.startsWord_iff.mpr hc), Option.map_none]

end IsLexeme

end Scriptlet
