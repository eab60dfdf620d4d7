import Mathlib
import Scriptlet.Text.Glyph

/-!
# Reading bytes as characters

`Decodes bytes gs` says, without a decoder, which glyphs a string of bytes is read as: a UTF-8 form
at the front is its character, and a byte at which no such form starts stands alone.

* `Text.frontChar?_eq_some_iff` — the decoder finds a character exactly if its form is at the front.
* **`Text.readGlyphs_eq_iff`** — `Text.readGlyphs` is this reading, of which there is one for all bytes.
* `Text.chars_ofChars` — characters that are written as text are read back.
* `Decodes.append_ascii` — a byte below 128 completes no character that was begun before it, so
  reading can be cut in front of it; so it can be cut at a newline (`Text.chars_append_newline`).
-/

namespace Scriptlet

/-- **How bytes are read.** -/
inductive Decodes : List UInt8 → List Glyph → Prop where
  | done : Decodes [] []
  | char {c : Char} {rest : List UInt8} {gs : List Glyph} :
      Decodes rest gs → Decodes (String.utf8EncodeChar c ++ rest) (.char c :: gs)
  | stray {b : UInt8} {rest : List UInt8} {gs : List Glyph} :
      (∀ c, ¬ String.utf8EncodeChar c <+: b :: rest) → Decodes rest gs →
      Decodes (b :: rest) (.stray b :: gs)

namespace Text

lemma exists_cons_utf8EncodeChar (c : Char) :
    ∃ b bs, String.utf8EncodeChar c = b :: bs ∧ bs.length = c.utf8Size - 1 := by
  have hlength := String.length_utf8EncodeChar c
  have hpos := Char.utf8Size_pos c
  cases hbytes : String.utf8EncodeChar c with
  | nil => simp [hbytes] at hlength; omega
  | cons b bs => exact ⟨b, bs, rfl, by simp [hbytes] at hlength; omega⟩

/-- The decoder looks at four bytes, which is enough for every character. -/
lemma frontChar?_eq_some_iff {bytes : List UInt8} {c : Char} :
    frontChar? bytes = some c ↔ String.utf8EncodeChar c <+: bytes := by
  constructor
  · intro h
    obtain ⟨l, hl⟩ := ByteArray.exists_of_utf8DecodeChar?_eq_some h
    have hlist : bytes.take 4 = String.utf8EncodeChar c ++ l.data.toList := by
      have := congrArg (fun b : ByteArray => b.data.toList) hl
      simpa using this
    exact (hlist ▸ List.prefix_append _ _).trans (List.take_prefix 4 bytes)
  · rintro ⟨rest, rfl⟩
    have hlength : (String.utf8EncodeChar c).length ≤ 4 := by
      rw [String.length_utf8EncodeChar]
      exact Char.utf8Size_le_four c
    rw [frontChar?, List.take_append, List.take_of_length_le hlength, List.toByteArray_append]
    exact ByteArray.utf8DecodeChar?_utf8EncodeChar_append

lemma readGlyphs_char (c : Char) (rest : List UInt8) :
    readGlyphs (String.utf8EncodeChar c ++ rest) = .char c :: readGlyphs rest := by
  have hfront : frontChar? (String.utf8EncodeChar c ++ rest) = some c :=
    frontChar?_eq_some_iff.mpr (List.prefix_append _ _)
  obtain ⟨b, bs, hbytes, hlength⟩ := exists_cons_utf8EncodeChar c
  rw [hbytes, List.cons_append] at hfront ⊢
  rw [readGlyphs, hfront]
  simp only [← hlength, List.drop_left]

lemma readGlyphs_stray {b : UInt8} {rest : List UInt8}
    (h : ∀ c, ¬ String.utf8EncodeChar c <+: b :: rest) :
    readGlyphs (b :: rest) = .stray b :: readGlyphs rest := by
  have hfront : frontChar? (b :: rest) = none := by
    refine Option.eq_none_iff_forall_ne_some.mpr fun c hc => ?_
    exact h c (frontChar?_eq_some_iff.mp hc)
  rw [readGlyphs, hfront]

lemma decodes_readGlyphs (bytes : List UInt8) : Decodes bytes (readGlyphs bytes) := by
  induction bytes using readGlyphs.induct with
  | case1 => rw [readGlyphs]; exact .done
  | case2 b rest c hfront ih =>
      obtain ⟨tail, htail⟩ := frontChar?_eq_some_iff.mp hfront
      obtain ⟨b', bs, hbytes, hlength⟩ := exists_cons_utf8EncodeChar c
      have hrest : rest.drop (c.utf8Size - 1) = tail := by
        rw [hbytes, List.cons_append, List.cons.injEq] at htail
        rw [← hlength, ← htail.2, List.drop_left]
      rw [hrest] at ih
      rw [← htail, readGlyphs_char]
      exact .char ih
  | case3 b rest hfront ih =>
      have hstray : ∀ c, ¬ String.utf8EncodeChar c <+: b :: rest := by
        intro c hc
        rw [frontChar?_eq_some_iff.mpr hc] at hfront
        simp at hfront
      rw [readGlyphs_stray hstray]
      exact .stray hstray ih

/-- **Every string of bytes is read in one way**, the one that `readGlyphs` finds. -/
theorem readGlyphs_eq_iff {bytes : List UInt8} {gs : List Glyph} :
    readGlyphs bytes = gs ↔ Decodes bytes gs := by
  constructor
  · rintro rfl
    exact decodes_readGlyphs bytes
  · intro h
    induction h with
    | done => rw [readGlyphs]
    | char _ ih => rw [readGlyphs_char, ih]
    | stray hstray _ ih => rw [readGlyphs_stray hstray, ih]

lemma chars_ofChars_append (cs : List Char) (t : Text) : (ofChars cs ++ t).chars = cs ++ t.chars := by
  induction cs with
  | nil => rfl
  | cons c cs ih =>
      have hbytes : ofChars (c :: cs) ++ t = ⟨String.utf8EncodeChar c ++ (ofChars cs ++ t).bytes⟩ :=
        congrArg Text.mk (List.append_assoc _ _ _)
      rw [hbytes, chars, glyphs, readGlyphs_char, List.map_cons, List.cons_append, ← ih]
      rfl

/-- Characters that are written as text are read back. -/
lemma chars_ofChars (cs : List Char) : (ofChars cs).chars = cs := by
  have hbytes : ofChars cs ++ ofChars [] = ofChars cs := congrArg Text.mk (List.append_nil _)
  have hnil : (ofChars []).chars = [] := by
    rw [chars, glyphs, ofChars, List.flatMap_nil, readGlyphs, List.map_nil]
  rw [← hbytes, chars_ofChars_append, hnil, List.append_nil]

lemma ofChars_injective : Function.Injective ofChars :=
  Function.LeftInverse.injective chars_ofChars

/-! ## ASCII -/

lemma utf8EncodeChar_of_ascii {b : UInt8} (h : b < 128) :
    String.utf8EncodeChar (Char.ofNat b.toNat) = [b] := by
  have hb : b.toNat < 128 := h
  have hvalid : (Char.ofNat b.toNat).val.toNat = b.toNat := by
    rw [Char.toNat_val, Char.toNat_ofNat, if_pos]
    exact .inl (by omega)
  rw [String.utf8EncodeChar]
  simp only [hvalid, show b.toNat ≤ 127 by omega, if_true, UInt8.ofNat_toNat]

/-- Bytes below 128 are one character each. -/
lemma chars_of_ascii {t : Text} (h : ∀ b ∈ t.bytes, b < 128) :
    t.chars = t.bytes.map fun b => Char.ofNat b.toNat := by
  obtain ⟨bytes⟩ := t
  have hreads : Decodes bytes (bytes.map fun b => .char (Char.ofNat b.toNat)) := by
    induction bytes with
    | nil => exact .done
    | cons b bytes ih =>
        have hchar := Decodes.char (c := Char.ofNat b.toNat)
          (ih fun b hb => h b (List.mem_cons_of_mem _ hb))
        rwa [utf8EncodeChar_of_ascii (h b List.mem_cons_self)] at hchar
  rw [chars, glyphs, readGlyphs_eq_iff.mpr hreads, List.map_map]
  rfl

/-- A byte below 128 stands in the form of a character only if it is the whole form. -/
lemma utf8EncodeChar_of_mem {c : Char} {b : UInt8} (hb : b < 128)
    (h : b ∈ String.utf8EncodeChar c) : String.utf8EncodeChar c = [b] := by
  have hbyte : b.toNat < 128 := hb
  unfold String.utf8EncodeChar at h ⊢
  dsimp only at h ⊢
  -- every byte of a longer form is at least 128
  split_ifs at h ⊢ with hone htwo hthree
  · rw [List.mem_singleton.mp h]
  · simp only [List.mem_cons, List.not_mem_nil, or_false] at h
    rcases h with rfl | rfl <;> simp only [UInt8.toNat_ofNat'] at hbyte <;> omega
  · simp only [List.mem_cons, List.not_mem_nil, or_false] at h
    rcases h with rfl | rfl | rfl <;> simp only [UInt8.toNat_ofNat'] at hbyte <;> omega
  · simp only [List.mem_cons, List.not_mem_nil, or_false] at h
    rcases h with rfl | rfl | rfl | rfl <;> simp only [UInt8.toNat_ofNat'] at hbyte <;> omega

/-- So it stands in the form of one character only. -/
lemma mem_utf8EncodeChar_iff {c : Char} {b : UInt8} (hb : b < 128) :
    b ∈ String.utf8EncodeChar c ↔ c = Char.ofNat b.toNat := by
  constructor
  · intro h
    have hform : frontChar? [b] = some c :=
      frontChar?_eq_some_iff.mpr (utf8EncodeChar_of_mem hb h ▸ List.prefix_refl _)
    have hascii : frontChar? [b] = some (Char.ofNat b.toNat) :=
      frontChar?_eq_some_iff.mpr (utf8EncodeChar_of_ascii hb ▸ List.prefix_refl _)
    exact Option.some.inj (hform.symm.trans hascii)
  · rintro rfl
    rw [utf8EncodeChar_of_ascii hb]
    exact List.mem_singleton_self b

end Text

namespace Decodes

variable {bytes : List UInt8} {gs : List Glyph}

lemma flatMap_bytes (h : Decodes bytes gs) : gs.flatMap Glyph.bytes = bytes := by
  induction h with
  | done => rfl
  | char _ ih => rw [List.flatMap_cons, ih]; rfl
  | stray _ _ ih => rw [List.flatMap_cons, ih]; rfl

/-- What is left behind some glyphs is read as the glyphs that follow. -/
lemma drop (h : Decodes bytes gs) (n : Nat) :
    Decodes ((gs.drop n).flatMap Glyph.bytes) (gs.drop n) := by
  induction h generalizing n with
  | done =>
      rw [List.drop_nil]
      exact .done
  | char hrest ih =>
      cases n with
      | zero =>
          rw [List.drop_zero, (Decodes.char hrest).flatMap_bytes]
          exact .char hrest
      | succ n => exact ih n
  | stray hstray hrest ih =>
      cases n with
      | zero =>
          rw [List.drop_zero, (Decodes.stray hstray hrest).flatMap_bytes]
          exact .stray hstray hrest
      | succ n => exact ih n

end Decodes

/-- **What stands in front of a byte below 128 is read as if it stood alone.** -/
theorem Decodes.append_ascii {a rest : List UInt8} {b : UInt8} {gs hs : List Glyph} (hb : b < 128)
    (ha : Decodes a gs) (hrest : Decodes (b :: rest) hs) :
    Decodes (a ++ b :: rest) (gs ++ hs) := by
  induction ha with
  | done => exact hrest
  | char _ ih =>
      rw [List.append_assoc]
      exact .char ih
  | @stray b' a gs hstray _ ih =>
      rw [List.cons_append, List.cons_append]
      refine .stray (fun c hc => ?_) ih
      rw [← List.cons_append] at hc
      rcases List.prefix_or_prefix_of_prefix hc (List.prefix_append (b' :: a) (b :: rest)) with
        hinside | ⟨tail, htail⟩
      · exact hstray c hinside
      · cases tail with
        | nil =>
            rw [List.append_nil] at htail
            exact hstray c (htail ▸ List.prefix_refl _)
        | cons b'' tail =>
            -- the form reaches behind `a`, so it holds the byte and would be nothing else
            rw [← htail, List.prefix_append_right_inj, List.cons_prefix_cons] at hc
            obtain ⟨rfl, -⟩ := hc
            have hwhole := Text.utf8EncodeChar_of_mem hb (c := c) (by simp [← htail])
            simp [← htail] at hwhole

/-! ## Newlines -/

namespace Text

lemma newline_lt : newline < 128 := by decide

lemma newline_mem_utf8EncodeChar {c : Char} : newline ∈ String.utf8EncodeChar c ↔ c = '\n' :=
  mem_utf8EncodeChar_iff newline_lt

/-- Whatever stands before a newline, the newline is read as one. -/
lemma chars_append_newline (a b : Text) : (a ++ "\n" ++ b).chars = a.chars ++ '\n' :: b.chars := by
  have hform : ("\n" : Text).bytes = [newline] := by decide
  have hbytes : a ++ "\n" ++ b = ⟨a.bytes ++ ("\n" : Text).bytes ++ b.bytes⟩ := rfl
  have hnewline : Decodes (newline :: b.bytes) (.char '\n' :: b.glyphs) :=
    .char (c := '\n') (decodes_readGlyphs b.bytes)
  have hreads := (decodes_readGlyphs a.bytes).append_ascii newline_lt hnewline
  rw [hbytes, hform, List.append_assoc, List.singleton_append, chars, glyphs,
    readGlyphs_eq_iff.mpr hreads, List.map_append]
  rfl

/-- Bytes have as many newlines as their characters. -/
lemma count_newline (t : Text) : t.chars.count '\n' = t.bytes.count newline := by
  obtain ⟨bytes⟩ := t
  have hreads := decodes_readGlyphs bytes
  simp only [chars, glyphs]
  generalize readGlyphs bytes = gs at hreads ⊢
  induction hreads with
  | done => rfl
  | @char c rest gs _ ih =>
      rw [List.map_cons, List.count_append, ← ih, Glyph.toChar]
      by_cases hc : c = '\n'
      · subst hc
        rw [List.count_cons_self, Nat.add_comm]
        rfl
      · rw [List.count_cons_of_ne hc,
          List.count_eq_zero_of_not_mem (newline_mem_utf8EncodeChar.not.mpr hc), Nat.zero_add]
  | @stray b rest gs hstray _ ih =>
      have hb : b ≠ newline := by
        rintro rfl
        exact hstray '\n' (List.prefix_append [newline] rest)
      rw [List.map_cons, Glyph.toChar, List.count_cons_of_ne (by decide), List.count_cons_of_ne hb, ih]

end Text

end Scriptlet
