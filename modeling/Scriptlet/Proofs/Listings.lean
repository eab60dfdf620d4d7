import Mathlib
import Scriptlet.Fixture.Case
import Scriptlet.Proofs.Layout
import Scriptlet.Proofs.Safety

/-!
# The text of a listing determines the listing

A listing is written one statement per line, and a line is a mnemonic with at most one operand behind
a space.  Test cases keep listings as such text.  This file says that nothing is lost by that.

**Reading back.**  `readListing?` cuts a text at its newlines and each line at its first space.  A
mnemonic has no space in it, so the first space is the one in front of the operand, whatever the
operand holds; if there is none, the operand is empty.  So a statement is read back from its line
(`Statement.ofLine?_render`), and a listing whose operands have no newline from its text
(`readListing?_format`).

**Operands of compiled listings.**  What a statement of a compiled listing has for an operand is the
literal of a token or one of a few words of the compiler (`Derives.code_operands`), and the literal of
a token has characters, none of which is blank (`IsLexeme.solid`).

* **`listing_text_faithful`** — listings with the same text are the same, the operands of compiled
  listings are not empty and have no blank characters, and a test case is passed exactly by the
  sources that compile to the listing whose text it keeps.
-/

namespace Scriptlet

/-! ## Cutting a text -/

namespace Text

/-- What stands before the first separator, and what stands behind it; without a separator all stands
before it. -/
def splitFirst (sep : UInt8) (t : Text) : Text × Text :=
  (⟨t.bytes.takeWhile (· ≠ sep)⟩, ⟨(t.bytes.dropWhile (· ≠ sep)).tail⟩)

lemma splitFirst_of_not_mem {sep : UInt8} {t : Text} (h : sep ∉ t.bytes) :
    t.splitFirst sep = (t, ("" : Text)) := by
  have hall : ∀ b ∈ t.bytes, decide (b ≠ sep) = true := by
    intro b hb
    exact decide_eq_true (ne_of_mem_of_not_mem hb h)
  have hafter : t.bytes.dropWhile (· ≠ sep) = [] := List.dropWhile_eq_nil_iff.mpr hall
  rw [splitFirst, List.takeWhile_eq_self_iff.mpr hall, hafter]
  rfl

lemma splitFirst_append {sep : UInt8} {t : Text} (h : sep ∉ t.bytes) (after : List UInt8) :
    splitFirst sep ⟨t.bytes ++ sep :: after⟩ = (t, ⟨after⟩) := by
  have hall : ∀ b ∈ t.bytes, decide (b ≠ sep) = true := by
    intro b hb
    exact decide_eq_true (ne_of_mem_of_not_mem hb h)
  simp only [splitFirst, List.takeWhile_append_of_pos hall, List.dropWhile_append_of_pos hall]
  simp

/-- The first piece ends at the first separator. -/
lemma cut_append {sep : UInt8} {bytes : List UInt8} (h : sep ∉ bytes) (after : List UInt8) :
    cut sep (bytes ++ sep :: after) = (bytes, (cut sep after).1 :: (cut sep after).2) := by
  induction bytes with
  | nil => simp [cut]
  | cons b bytes ih =>
      have hb : b ≠ sep := fun heq => h (by simp [heq])
      rw [List.cons_append, cut, if_neg hb, ih fun hmem => h (by simp [hmem])]

/-- Lines that are ended by newlines are what cutting at newlines gives, with nothing behind the last
newline. -/
lemma splitLines_concat {lines : List Text} (h : ∀ line ∈ lines, newline ∉ line.bytes) :
    (concat (lines.map (· ++ "\n"))).splitLines = lines ++ [("" : Text)] := by
  induction lines with
  | nil => rfl
  | cons line lines ih =>
      have hbytes : (concat ((line :: lines).map (· ++ "\n"))).bytes
          = line.bytes ++ newline :: (concat (lines.map (· ++ "\n"))).bytes :=
        List.append_assoc line.bytes [newline] _
      have hrest := ih fun l hl => h l (by simp [hl])
      simp only [splitLines, splitOn] at hrest ⊢
      rw [hbytes, cut_append (h line (by simp)), List.map_cons, hrest]
      rfl

end Text

/-! ## Reading a listing back -/

namespace Statement

/-- The statement on a line: the mnemonic up to the first space, and the operand behind it. -/
def ofLine? (line : Text) : Option Statement :=
  ofParts? (line.splitFirst 32).1 (line.splitFirst 32).2

lemma mnemonic_solid (s : Statement) : 32 ∉ s.mnemonic.bytes ∧ Text.newline ∉ s.mnemonic.bytes := by
  cases s <;> simp only [mnemonic] <;> decide

lemma ofParts?_parts (s : Statement) : ofParts? s.mnemonic s.operand = some s := by
  cases s <;> rfl

/-- **A statement is read back from its line**, whatever its operand is. -/
theorem ofLine?_render (s : Statement) : ofLine? s.render = some s := by
  have hparts : s.render.splitFirst 32 = (s.mnemonic, s.operand) := by
    unfold render
    split_ifs with hempty
    · have hoperand : s.operand = "" := congrArg Text.mk (List.isEmpty_iff.mp hempty)
      rw [Text.splitFirst_of_not_mem s.mnemonic_solid.1, hoperand]
    · have hbytes : Text.concat [s.mnemonic, " ", s.operand]
          = ⟨s.mnemonic.bytes ++ 32 :: s.operand.bytes⟩ := by
        simp [Text.concat, Text.ofString, Text.ofChars, String.utf8EncodeChar]
      rw [hbytes, Text.splitFirst_append s.mnemonic_solid.1]
  rw [ofLine?, hparts]
  exact s.ofParts?_parts

lemma newline_not_mem_render {s : Statement} (h : Text.newline ∉ s.operand.bytes) :
    Text.newline ∉ s.render.bytes := by
  have hspace : Text.newline ∉ (" " : Text).bytes := by decide
  unfold render
  split_ifs
  · exact s.mnemonic_solid.2
  · simp [Text.concat, s.mnemonic_solid.2, hspace, h]

end Statement

/-- The statements of a text that has one on each line. -/
def readListing? (text : Text) : Option (List Statement) :=
  text.splitLines.dropLast.mapM Statement.ofLine?

/-- The lines of a listing are its statements, if no operand has a newline. -/
lemma splitLines_format {listing : List Statement}
    (h : ∀ s ∈ listing, Text.newline ∉ s.operand.bytes) :
    (format listing).splitLines = listing.map Statement.render ++ [("" : Text)] := by
  have hlines : format listing = .concat ((listing.map Statement.render).map (· ++ "\n")) := by
    rw [format, List.map_map]
    rfl
  rw [hlines]
  refine Text.splitLines_concat fun line hline => ?_
  obtain ⟨s, hs, rfl⟩ := List.mem_map.mp hline
  exact Statement.newline_not_mem_render (h s hs)

/-- **A listing is read back from its text**, if no operand has a newline. -/
theorem readListing?_format {listing : List Statement}
    (h : ∀ s ∈ listing, Text.newline ∉ s.operand.bytes) :
    readListing? (format listing) = some listing := by
  rw [readListing?, splitLines_format h, List.dropLast_concat]
  clear h
  induction listing with
  | nil => rfl
  | cons s listing ih => simp [Statement.ofLine?_render, ih]

/-- Listings with the same text are the same. -/
lemma format_injective {a b : List Statement} (ha : ∀ s ∈ a, Text.newline ∉ s.operand.bytes)
    (hb : ∀ s ∈ b, Text.newline ∉ s.operand.bytes) (h : format a = format b) : a = b := by
  have hread : readListing? (format a) = some b := h ▸ readListing?_format hb
  exact Option.some.inj ((readListing?_format ha).symm.trans hread)

/-! ## Operands of compiled listings -/

/-- The text has characters, and none of them is blank. -/
structure Text.Solid (t : Text) : Prop where
  nonempty : t.isEmpty = false
  chars : ∀ c ∈ t.chars, isBlank c = false

namespace Text.Solid

lemma ofChars {cs : List Char} (hne : cs ≠ []) (h : cs.all fun c => !isBlank c) :
    (Text.ofChars cs).Solid where
  nonempty := by
    obtain ⟨c, cs, rfl⟩ := List.exists_cons_of_ne_nil hne
    obtain ⟨b, bs, hbytes, -⟩ := exists_cons_utf8EncodeChar c
    simp [isEmpty, Text.ofChars, hbytes]
  chars := by
    intro c hc
    rw [chars_ofChars] at hc
    simpa using List.all_eq_true.mp h c hc

lemma newline {t : Text} (h : t.Solid) : newline ∉ t.bytes := by
  have hnone : '\n' ∉ t.chars := by
    intro hmem
    exact absurd (h.chars _ hmem) (by decide)
  rw [← List.count_eq_zero, ← count_newline, List.count_eq_zero]
  exact hnone

end Text.Solid

/-- What is not blank by its class is not blank. -/
lemma isBlank_of_class {c : Char} (h : CharClass.of c ≠ .blank) : isBlank c = false := by
  simpa [isBlank] using h

lemma Lexeme.isBlank_of_continuesWord {c : Char} (h : continuesWord c) : isBlank c = false := by
  cases hblank : isBlank c with
  | false => rfl
  | true => simp [continuesWord_of_blank hblank] at h

lemma isBlank_of_isDigit {c : Char} (h : isDigit c) : isBlank c = false := by
  refine isBlank_of_class ?_
  simp only [isDigit, decide_eq_true_eq] at h
  simp [h]

/-- **The text of a token has no blank character in it.** -/
theorem IsLexeme.solid {kind : Kind} {text rest : List Char}
    (h : IsLexeme (.token kind) text rest) : (Text.ofChars text).Solid := by
  refine .ofChars h.ne_nil (List.all_eq_true.mpr fun c hc => ?_)
  rw [Bool.not_eq_true']
  cases h with
  | word hstart hmore =>
      rcases List.mem_cons.mp hc with rfl | hc
      · rcases Lexeme.class_of_startsWord (Lexeme.startsWord_iff.mpr hstart) with hclass | hclass <;>
          exact isBlank_of_class (by simp [hclass])
      · exact Lexeme.isBlank_of_continuesWord (Lexeme.continuesWord_iff.mpr (hmore c hc))
  | whole hdigit hmore =>
      rcases List.mem_cons.mp hc with rfl | hc
      · exact isBlank_of_isDigit hdigit
      · exact isBlank_of_isDigit (hmore c hc)
  | decimal hdigit hmore _ hfraction =>
      simp only [List.mem_cons, List.mem_append] at hc
      rcases hc with rfl | hc | rfl | hc
      · exact isBlank_of_isDigit hdigit
      · exact isBlank_of_isDigit (hmore c hc)
      · decide
      · exact isBlank_of_isDigit (hfraction c hc)
  | mark hmark =>
      have hgraphic := Lexeme.marks_graphic _ hmark c (by simpa using hc)
      exact isBlank_of_class (by simp [hgraphic])

/-- Whether the statement has an operand. -/
def Statement.hasOperand : Statement → Bool
  | endBlock | branch | beginBlock => false
  | _ => true

lemma Statement.operand_eq_empty {s : Statement} (h : s.hasOperand = false) : s.operand = "" := by
  cases s <;> simp_all [hasOperand, operand]

/-- **The operands of a program** are literals of its tokens, or the words that the compiler has of
its own. -/
theorem Derives.code_operands {strict : Bool} {ts : List Token} {p : Program}
    (h : Derives ⟨.standard, strict⟩ ts p) {P : Text → Prop} (hts : ∀ t ∈ ts, P t.literal)
    (hplus : P "+") (hzero : P "0") (hfalse : P "false") (m : Modes) :
    ∀ s ∈ p.code m, s.hasOperand → P s.operand := by
  intro s hs hoperand
  cases h.code_madeOf hs with
  | type ht | operator ht | push ht | get ht | test ht | compare ht => exact hts _ ht
  | declare ht _ | load ht _ => exact hts _ ht
  | clear hword =>
      rcases hword with rfl | rfl
      · exact hzero
      · exact hfalse
  | restart => exact hplus
  | branch | beginBlock | endBlock => simp [Statement.hasOperand] at hoperand

/-- The operands of the listing of a source are texts of tokens, or words of the compiler. -/
lemma Dialect.listing_operands {strict : Bool} {source : Text} {listing : List Statement}
    (h : Dialect.listing ⟨.standard, strict⟩ source = .ok listing) {P : Text → Prop}
    (htoken : ∀ {kind : Kind} {text rest : List Char}, IsLexeme (.token kind) text rest →
      P (.ofChars text))
    (hword : ∀ word ∈ ["global", "int", "+", "0", "false"], P (.ofString word)) :
    ∀ s ∈ listing, s.hasOperand → P s.operand := by
  obtain ⟨ts, hscan, hcompile⟩ := Dialect.listing_eq_ok h
  obtain ⟨p, hp, rfl⟩ := listing_eq_ok_iff.mp hcompile
  have hliteral : ∀ t ∈ ts, P t.literal := by
    intro t ht
    obtain ⟨text, rest, hlexeme, hliteral⟩ := (scan_eq_ok_iff.mp hscan).isLexeme ht
    exact hliteral ▸ htoken hlexeme
  intro s hs hoperand
  rcases List.mem_append.mp hs with hs | hs
  · simp only [seedMarkers, List.mem_cons, List.not_mem_nil, or_false] at hs
    rcases hs with rfl | rfl | rfl <;> exact hword _ (by simp)
  · exact hp.code_operands hliteral (hword _ (by simp)) (hword _ (by simp)) (hword _ (by simp)) _ s hs
      hoperand

/-- The operands of the listing of a source are solid. -/
lemma Dialect.listing_operands_solid {strict : Bool} {source : Text} {listing : List Statement}
    (h : Dialect.listing ⟨.standard, strict⟩ source = .ok listing) :
    ∀ s ∈ listing, s.hasOperand → s.operand.Solid := by
  have hwords : ∀ word ∈ ["global", "int", "+", "0", "false"],
      word.toList ≠ [] ∧ word.toList.all fun c => !isBlank c := by decide
  exact Dialect.listing_operands h IsLexeme.solid fun word hword =>
    .ofChars (hwords word hword).1 (hwords word hword).2

lemma Dialect.listing_newline {strict : Bool} {source : Text} {listing : List Statement}
    (h : Dialect.listing ⟨.standard, strict⟩ source = .ok listing) :
    ∀ s ∈ listing, Text.newline ∉ s.operand.bytes := by
  intro s hs
  cases hoperand : s.hasOperand with
  | true => exact (Dialect.listing_operands_solid h s hs hoperand).newline
  | false =>
      rw [Statement.operand_eq_empty hoperand]
      decide

/-! ## Test cases -/

/-- A case that wants a listing is passed by the listings with the text that it keeps. -/
lemma Case.judge_passes_iff {c : Case} (hc : c.error = "")
    (outcome : Except SourceError (List Statement)) :
    (c.judge outcome).mismatch = none ↔
      ∃ listing, outcome = .ok listing ∧ format listing = c.want := by
  have hempty : c.error.isEmpty = true := by rw [hc]; rfl
  cases outcome with
  | error e => simp [judge, hempty]
  | ok listing =>
      by_cases hwant : format listing = c.want <;> simp [judge, hempty, hwant]

/-- **The text of a listing determines the listing.**

* A listing whose operands have no newline is read back from its text by cutting it at the newlines
  and each line at its first space, so two such listings with the same text are the same.
* In the listing of a source every operand that a statement has is not empty, and has no newline and
  no blank character.
* So a test case that keeps the text of the listing of some source is passed exactly by the sources
  with that listing. -/
theorem listing_text_faithful :
    (∀ listing : List Statement, (∀ s ∈ listing, Text.newline ∉ s.operand.bytes) →
      readListing? (format listing) = some listing) ∧
    (∀ a b : List Statement, (∀ s ∈ a, Text.newline ∉ s.operand.bytes) →
      (∀ s ∈ b, Text.newline ∉ s.operand.bytes) → format a = format b → a = b) ∧
    (∀ (strict : Bool) (source : Text) (listing : List Statement),
      Dialect.listing ⟨.standard, strict⟩ source = .ok listing → ∀ s ∈ listing,
        (if s.hasOperand then s.operand.isEmpty = false else s.operand = "") ∧
          Text.newline ∉ s.operand.bytes ∧ ∀ c ∈ s.operand.chars, isBlank c = false) ∧
    ∀ (strict strict' : Bool) (c : Case) (source : Text) (wanted : List Statement),
      Dialect.listing ⟨.standard, strict'⟩ source = .ok wanted → c.error = "" →
      c.want = format wanted →
        ((c.check ⟨.standard, strict⟩).mismatch = none ↔
          Dialect.listing ⟨.standard, strict⟩ c.input = .ok wanted) := by
  refine ⟨fun listing h => readListing?_format h, fun a b ha hb h => format_injective ha hb h, ?_, ?_⟩
  · intro strict source listing h s hs
    refine ⟨?_, Dialect.listing_newline h s hs, ?_⟩
    · split_ifs with hoperand
      · exact (Dialect.listing_operands_solid h s hs hoperand).nonempty
      · exact Statement.operand_eq_empty (by simpa using hoperand)
    · cases hoperand : s.hasOperand with
      | true => exact (Dialect.listing_operands_solid h s hs hoperand).chars
      | false =>
          intro c hc
          have hnone : ("" : Text).chars = [] := Text.chars_ofChars []
          rw [Statement.operand_eq_empty hoperand, hnone] at hc
          simp at hc
  · intro strict strict' c source wanted hwanted hc hwant
    rw [Case.check, Case.judge_passes_iff hc, hwant]
    constructor
    · rintro ⟨listing, hlisting, hformat⟩
      rw [hlisting, format_injective (Dialect.listing_newline hlisting)
        (Dialect.listing_newline hwanted) hformat]
    · intro hlisting
      exact ⟨wanted, hlisting, rfl⟩

/-- Operands that start with a space, are empty or have a space in them, and a test case whose source
is written otherwise than the one that its text comes from. -/
theorem listing_text_faithful_spaces :
    let odd : List Statement := [.push " 1", .get "", .test "a b", .endBlock]
    let wanted : List Statement :=
      [.scope "global", .type "int", .operator "+", .declare "y", .load "y", .clear "0", .push "1",
        .get "x"]
    let c : Case := ⟨"sum", "", "y=1+x ; // and no more", format wanted, ""⟩
    format odd = "push  1\nget\ntest a b\nend\n" ∧ readListing? (format odd) = some odd ∧
    (∀ other, (∀ s ∈ other, Text.newline ∉ s.operand.bytes) → format other = format odd →
      other = odd) ∧
    Dialect.listing ⟨.standard, true⟩ "y = 1 + x;" = .ok wanted ∧
    (∀ s ∈ wanted, s.hasOperand ∧ s.operand.isEmpty = false ∧
      ∀ c ∈ s.operand.chars, isBlank c = false) ∧
    (c.check .standard).mismatch = none := by
  intro odd wanted c
  obtain ⟨hread, hsame, hsolid, hcase⟩ := listing_text_faithful
  have hodd : ∀ s ∈ odd, Text.newline ∉ s.operand.bytes := by decide
  have hwanted : Dialect.listing ⟨.standard, true⟩ "y = 1 + x;" = .ok wanted := by decide +kernel
  have hinput : Dialect.listing ⟨.standard, false⟩ c.input = .ok wanted := by decide +kernel
  have hoperands : ∀ s ∈ wanted, s.hasOperand = true := by decide
  refine ⟨by decide, hread odd hodd, fun other hother => hsame other odd hother hodd, hwanted, ?_, ?_⟩
  · intro s hs
    obtain ⟨hoperand, -, hchars⟩ := hsolid true _ wanted hwanted s hs
    rw [if_pos (hoperands s hs)] at hoperand
    exact ⟨hoperands s hs, hoperand, hchars⟩
  · exact (hcase false true c _ wanted hwanted rfl rfl).mpr hinput

end Scriptlet
