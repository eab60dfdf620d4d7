import Mathlib
import Scriptlet.Proofs.HandlerCalls
import Scriptlet.Proofs.Layout

/-!
# Which words of a source reach a handler

A dialect may give a handler to any text.  Whether the handler is ever asked is up to the scanner:
it decides by the word alone what is a keyword, and it knows three of them.

**Words.**  `IsWord` is what is written like a name.  Wherever a word stands as a token, it has the
kind that its characters give it (`IsLexeme.kind_of_word`); so the keyword tokens of a source are
those with one of the words `sourceKeywords` (`scan_keyword_iff`), and every other word is a name,
a type or a literal (`IsWord.kind`).

**Lookups.**  A step of the compiler looks a word up only if it dispatches a keyword with that word
(`Dialect.step_congr`), and a state keeps the handler that was found.  So dialects that agree on the
words of the keywords dispatched compile alike (`Dialect.compile_congr`).

* **`sources_reach_three_words`** — dialects that agree on the three words compile every source
  alike, a handler for any other word is never called, and each of the three words can be given a
  handler that is called.
-/

namespace Scriptlet

open Compile

/-! ## Words -/

/-- The words that are keywords in a source. -/
def sourceKeywords : List Text := ["if", "else", "while"]

/-- A letter or an underscore, and behind it letters, digits and underscores. -/
inductive IsWord : Text → Prop where
  | intro (c : Char) (more : List Char) : Lexeme.startsWord c → more.all Lexeme.continuesWord →
      IsWord (.ofChars (c :: more))

lemma ofChars_eq_ofString_iff {word : List Char} {s : String} :
    Text.ofChars word = .ofString s ↔ String.ofList word = s := by
  rw [Text.ofString, Text.ofChars_injective.eq_iff, ← String.toList_inj, String.toList_ofList]

lemma ofChars_mem_sourceKeywords {word : List Char} :
    Text.ofChars word ∈ sourceKeywords ↔ String.ofList word ∈ Lexeme.keywordWords := by
  simp only [sourceKeywords, Lexeme.keywordWords, List.mem_cons, ofChars_eq_ofString_iff,
    List.not_mem_nil]

/-- The kind of a word: a keyword if it is one of the three, and else a type, a literal or a
name. -/
lemma Lexeme.wordKind_cases (word : List Char) :
    if Text.ofChars word ∈ sourceKeywords then wordKind word = .keyword
    else wordKind word = .identifier ∨ wordKind word = .type ∨ wordKind word = .number := by
  have hdisjoint : ∀ w ∈ typeWords ++ literalWords, w ∉ keywordWords := by decide
  have hkind : KindOfWord word (wordKind word) := kindOfWord_iff.mpr rfl
  simp only [ofChars_mem_sourceKeywords]
  generalize wordKind word = kind at hkind ⊢
  cases hkind with
  | type htype => simp [hdisjoint _ (List.mem_append_left _ htype)]
  | keyword hkeyword => simp [hkeyword]
  | literal hliteral => simp [hdisjoint _ (List.mem_append_right _ hliteral)]
  | name _ hkeyword _ => simp [hkeyword]

lemma isWord_of_mem_sourceKeywords {word : Text} (h : word ∈ sourceKeywords) : IsWord word := by
  simp only [sourceKeywords, List.mem_cons, List.not_mem_nil, or_false] at h
  rcases h with rfl | rfl | rfl
  · exact .intro 'i' ['f'] (by decide) (by decide)
  · exact .intro 'e' ['l', 's', 'e'] (by decide) (by decide)
  · exact .intro 'w' ['h', 'i', 'l', 'e'] (by decide) (by decide)

/-- **A token that is written like a word has the kind of the word.** -/
lemma IsLexeme.kind_of_word {kind : Kind} {text rest : List Char}
    (h : IsLexeme (.token kind) text rest) (hword : IsWord (.ofChars text)) :
    kind = Lexeme.wordKind text := by
  generalize htext : Text.ofChars text = t at hword
  cases hword with
  | intro c more hc _ =>
      rw [Text.ofChars_injective htext] at h ⊢
      exact Shape.token.inj (h.eq_of_startsWord hc).1

/-- A keyword token is written like a word. -/
lemma IsLexeme.isWord_of_keyword {text rest : List Char}
    (h : IsLexeme (.token .keyword) text rest) : IsWord (.ofChars text) := by
  generalize hshape : Shape.token .keyword = shape at h
  cases h with
  | word hc hmore =>
      have hall : ∀ d ∈ _, Lexeme.continuesWord d := fun d hd =>
        Lexeme.continuesWord_iff.mpr (hmore d hd)
      exact .intro _ _ (Lexeme.startsWord_iff.mpr hc) (List.all_eq_true.mpr hall)
  | mark hmark =>
      obtain rfl := Shape.token.inj hshape
      simp [Lexeme.marks] at hmark
  | _ => simp at hshape

section Scan

variable {source : Text} {ts : List Token} {t : Token}

/-- The kind of a token of a source that is written like a word. -/
lemma IsWord.kind (hscan : scan source = .ok ts) (ht : t ∈ ts) (hword : IsWord t.literal) :
    if t.literal ∈ sourceKeywords then t.kind = .keyword
    else t.kind = .identifier ∨ t.kind = .type ∨ t.kind = .number := by
  obtain ⟨text, rest, hlexeme, hliteral⟩ := (scan_eq_ok_iff.mp hscan).isLexeme ht
  rw [hliteral] at hword ⊢
  rw [hlexeme.kind_of_word hword]
  exact Lexeme.wordKind_cases text

/-- **The keyword tokens of a source** are those with one of the three words. -/
theorem scan_keyword_iff (hscan : scan source = .ok ts) (ht : t ∈ ts) :
    t.kind = .keyword ↔ t.literal ∈ sourceKeywords := by
  constructor
  · intro hk
    have hword : IsWord t.literal := by
      obtain ⟨text, rest, hlexeme, hliteral⟩ := (scan_eq_ok_iff.mp hscan).isLexeme ht
      rw [hk] at hlexeme
      exact hliteral ▸ hlexeme.isWord_of_keyword
    have hkind := hword.kind hscan ht
    split_ifs at hkind with hmem
    · exact hmem
    · simp [hk] at hkind
  · intro hmem
    have hkind := (isWord_of_mem_sourceKeywords hmem).kind hscan ht
    rwa [if_pos hmem] at hkind

end Scan

/-- A word that is all of the source is one token. -/
lemma IsWord.scan_alone {word : Text} (h : IsWord word) :
    ∃ kind, scan word = .ok [⟨kind, word, 1, 1⟩] := by
  cases h with
  | intro c more hc hmore =>
      have hlexeme : IsLexeme (.token (Lexeme.wordKind (c :: more))) (c :: more) [] :=
        .of_startsWord hc (List.all_eq_true.mp hmore)
      have hfront : Lexeme.front c (more ++ [])
          = ⟨.token (Lexeme.wordKind (c :: more)), more.length⟩ := by
        rw [List.append_nil]
        exact hlexeme.front_alone
      have hlex := lex_of_token .start hfront
      rw [List.append_nil] at hlex
      have hnil (p : Position) : lex p [] = ⟨[], 0, p, p, [], none⟩ := by rw [lex]
      refine ⟨Lexeme.wordKind (c :: more), ?_⟩
      simp only [scan, Text.chars_ofChars, hlex, hnil, Lexed.prepend]
      rfl

/-! ## Lookups -/

section Lookups

variable {d d' : Dialect} {s : State} {t : Token} {ts : List Token}

/-- The two dialects find the same handler for the word of a keyword. -/
def AgreeOn (d d' : Dialect) (t : Token) : Prop :=
  t.kind = .keyword → d.keywords[t.literal]? = d'.keywords[t.literal]?

lemma Dialect.start_congr (hstrict : d.strict = d'.strict) (h : AgreeOn d d' t) (s : State) :
    d.start s t = d'.start s t := by
  unfold start
  split
  · rfl
  · rfl
  · rfl
  · next hk => simp only [keyword, h hk, hstrict]
  · rfl
  · rfl

/-- A step looks up the word of a keyword that it dispatches, and no other. -/
lemma Dialect.step_congr (hstrict : d.strict = d'.strict) (h : s.Dispatches t → AgreeOn d d' t) :
    d.step s t = d'.step s t := by
  cases hs : s.place with
  | expression begun => simp only [step, hs]
  | head handler word index tokens => simp only [step, hs]
  | statement =>
      by_cases hdispatches : s.Dispatches t
      · rw [step_dispatching hdispatches, step_dispatching hdispatches,
          start_congr hstrict (h hdispatches)]
      · have hclosing : t.kind = .closeDelim ∧ s.blocks ≠ [] := by
          simpa [State.Dispatches, hs] using hdispatches
        obtain ⟨word, outer, hblocks⟩ := List.exists_cons_of_ne_nil hclosing.2
        simp only [step, hs, statement, hclosing.1, hblocks]

lemma Dialect.compileFrom_congr (hstrict : d.strict = d'.strict)
    (h : ∀ site ∈ (d.compileFrom s ts).dispatches, AgreeOn d d' site.2) :
    d.compileFrom s ts = d'.compileFrom s ts := by
  induction ts generalizing s with
  | nil => rfl
  | cons t ts ih =>
      rw [compileFrom_dispatches_cons] at h
      have hstep : d.step s t = d'.step s t := by
        refine step_congr hstrict fun hdispatches => ?_
        rcases step_dispatches d s t with ⟨-, hsites⟩ | ⟨hnot, -⟩
        · exact h (s.index, t) (by simp [hsites])
        · exact absurd hdispatches hnot
      rw [compileFrom, compileFrom, ← hstep]
      cases hnext : d.step s t with
      | mk events next =>
          cases next with
          | error e => rfl
          | ok next =>
              simp only
              rw [ih fun site hsite => ?_]
              exact h site (List.mem_append_right _ (by simpa [hnext] using hsite))

/-- **Dialects that agree on the keywords dispatched compile alike.** -/
theorem Dialect.compile_congr (hstrict : d.strict = d'.strict)
    (h : ∀ site ∈ (d.compile ts).dispatches, AgreeOn d d' site.2) : d.compile ts = d'.compile ts :=
  congrArg (·.prepend Modes.opening) (compileFrom_congr hstrict h)

end Lookups

/-! ## Sources -/

section Sources

variable {d : Dialect} {source : Text} {ts : List Token}

lemma mem_of_dispatched {site : Nat × Token} (h : site ∈ (d.compile ts).dispatches) :
    site.2 ∈ ts := by
  obtain ⟨before, after, -, rfl, -⟩ := mem_dispatches.mp h
  simp

/-- The handlers called for a source are those of the three words. -/
lemma calls_of_source (hscan : scan source = .ok ts) {call : Text × List Token}
    (h : call ∈ (d.compile ts).calls) : call.1 ∈ sourceKeywords := by
  have hstart : ts.drop State.initial.index = ts := rfl
  have hcalls : (d.compile ts).calls
      = (State.initial.pending? ts).toList ++ (d.compile ts).dispatches.filterMap (d.callAt? ts) :=
    compileFrom_calls hstart
  rw [hcalls, pending?_statement rfl, Option.toList_none, List.nil_append, List.mem_filterMap] at h
  obtain ⟨site, hsite, hcall⟩ := h
  unfold Dialect.callAt? Dialect.callIn? at hcall
  split_ifs at hcall with hkeyword
  obtain ⟨head, -, rfl⟩ := Option.map_eq_some_iff.mp hcall
  exact (scan_keyword_iff hscan (mem_of_dispatched hsite)).mp hkeyword.1

/-- In front of an opening delimiter, a keyword with a handler calls it. -/
lemma call_of_opening {word opening : Token} (hk : word.kind = .keyword)
    (hmem : word.literal ∈ d.keywords) (hopening : opening.kind = .openDelim) :
    (word.literal, []) ∈ (d.compile [word, opening]).calls := by
  have hstart : [word, opening].drop State.initial.index = [word, opening] := rfl
  have hcalls : (d.compile [word, opening]).calls = _ := compileFrom_calls hstart
  have hsite : (0, word) ∈ (d.compile [word, opening]).dispatches :=
    mem_dispatches.mpr ⟨[], [opening], .initial, rfl, rfl, .start, rfl, by simp [hk]⟩
  rw [hcalls]
  refine List.mem_append_right _ (List.mem_filterMap.mpr ⟨(0, word), hsite, ?_⟩)
  simp [Dialect.callAt?, Dialect.callIn?, hk, hmem, headIn?, hopening]

end Sources

/-- **Only three words of a source reach a handler.**

* Two dialects, both strict or both not, that have the same handler or none for each of the three
  words `if`, `else` and `while` compile every source alike: all that happens on the way is the
  same, the handlers called and their heads included, and so is the listing or the error.
* So a handler for any other word changes nothing, and for every source all handlers called are
  those of the three words.
* In a source the keywords are exactly the three words, and any other word is a name, a type or a
  literal: alone it scans as one such token, and wherever it stands as a token it is of one of
  these kinds.
* Each of the three words can have a handler, whatever the others have: some source calls it. -/
theorem sources_reach_three_words :
    (∀ (d d' : Dialect) (source : Text), d.strict = d'.strict →
      (∀ word ∈ sourceKeywords, d.keywords[word]? = d'.keywords[word]?) →
      d.compileSource source = d'.compileSource source ∧ d.listing source = d'.listing source) ∧
    (∀ (d : Dialect) (source word : Text) (handler : Handler), word ∉ sourceKeywords →
      (d.withKeyword word handler).compileSource source = d.compileSource source) ∧
    (∀ (d : Dialect) (source : Text) (c : Compilation), d.compileSource source = .ok c →
      ∀ call ∈ c.calls, call.1 ∈ sourceKeywords) ∧
    (∀ (source : Text) (ts : List Token), scan source = .ok ts → ∀ t ∈ ts,
      (t.kind = .keyword ↔ t.literal ∈ sourceKeywords) ∧
      (IsWord t.literal → t.literal ∉ sourceKeywords →
        t.kind = .identifier ∨ t.kind = .type ∨ t.kind = .number)) ∧
    (∀ word : Text, IsWord word → word ∉ sourceKeywords → ∃ kind,
      (kind = .identifier ∨ kind = .type ∨ kind = .number) ∧ scan word = .ok [⟨kind, word, 1, 1⟩]) ∧
    ∀ (d : Dialect) (handler : Handler), ∀ word ∈ sourceKeywords, ∃ source c,
      (d.withKeyword word handler).compileSource source = .ok c ∧ (word, []) ∈ c.calls := by
  have hsame (d d' : Dialect) (source : Text) (hstrict : d.strict = d'.strict)
      (h : ∀ word ∈ sourceKeywords, d.keywords[word]? = d'.keywords[word]?) :
      d.compileSource source = d'.compileSource source := by
    unfold Dialect.compileSource
    cases hscan : scan source with
    | error e => rfl
    | ok ts =>
        refine congrArg Except.ok (Dialect.compile_congr hstrict fun site hsite hk => ?_)
        exact h _ ((scan_keyword_iff hscan (mem_of_dispatched hsite)).mp hk)
  refine ⟨fun d d' source hstrict h => ?_, fun d source word handler hword => ?_, ?_, ?_,
    fun word hword hother => ?_, fun d handler word hword => ?_⟩
  · refine ⟨hsame d d' source hstrict h, ?_⟩
    simp only [Dialect.listing, hsame d d' source hstrict h]
  · refine hsame _ _ source rfl fun other hother => ?_
    have hne : word ≠ other := fun heq => hword (heq ▸ hother)
    simp [Dialect.withKeyword, Std.TreeMap.getElem?_insert, hne]
  · intro d source c hc call hcall
    unfold Dialect.compileSource at hc
    split at hc
    · next ts hscan =>
        rw [← Except.ok.inj hc] at hcall
        exact calls_of_source hscan hcall
    · simp at hc
  · intro source ts hscan t ht
    refine ⟨scan_keyword_iff hscan ht, fun hword hother => ?_⟩
    have hkind := hword.kind hscan ht
    rwa [if_neg hother] at hkind
  · obtain ⟨kind, hscan⟩ := hword.scan_alone
    have hkind := IsWord.kind (t := ⟨kind, word, 1, 1⟩) hscan (by simp) hword
    exact ⟨kind, by rwa [if_neg hother] at hkind, hscan⟩
  · -- the word and an opening delimiter
    have hscan : ∃ ts, scan (word ++ "\x7b") = .ok ts ∧ ∃ token opening, ts = [token, opening] ∧
        token.kind = .keyword ∧ token.literal = word ∧ opening.kind = .openDelim := by
      simp only [sourceKeywords, List.mem_cons, List.not_mem_nil, or_false] at hword
      rcases hword with rfl | rfl | rfl
      · exact ⟨[⟨.keyword, "if", 1, 1⟩, ⟨.openDelim, "\x7b", 1, 3⟩], by decide +kernel, _, _, rfl,
          rfl, rfl, rfl⟩
      · exact ⟨[⟨.keyword, "else", 1, 1⟩, ⟨.openDelim, "\x7b", 1, 5⟩], by decide +kernel, _, _, rfl,
          rfl, rfl, rfl⟩
      · exact ⟨[⟨.keyword, "while", 1, 1⟩, ⟨.openDelim, "\x7b", 1, 6⟩], by decide +kernel, _, _, rfl,
          rfl, rfl, rfl⟩
    obtain ⟨ts, hscan, token, opening, rfl, hk, rfl, hopening⟩ := hscan
    refine ⟨token.literal ++ "\x7b", (d.withKeyword token.literal handler).compile [token, opening],
      by simp only [Dialect.compileSource, hscan], ?_⟩
    exact call_of_opening hk (by simp [Dialect.withKeyword]) hopening

/-- Handlers for a name, a type and a literal, which would refuse every head.  All three words
stand in the head and in the body of a `while`, and the source compiles as without them. -/
theorem sources_reach_three_words_refusing :
    let refusing : Handler := fun _ => .error (.refused "")
    let plain := Dialect.standard.withKeyword "while" fun _ => .ok []
    let more := ((plain.withKeyword "foo" refusing).withKeyword "int" refusing).withKeyword "true"
      refusing
    let source : Text := "while foo int true \x7b foo = true; int \x7d"
    (more.compileSource source = plain.compileSource source ∧
      more.listing source = .ok [.scope "global", .type "int", .operator "+", .beginBlock,
        .declare "foo", .load "foo", .clear "0", .push "true", .endBlock]) ∧
    (∃ kind, (kind = .identifier ∨ kind = .type ∨ kind = .number) ∧
      scan "foo" = .ok [⟨kind, "foo", 1, 1⟩]) ∧
    ∃ source c, (plain.withKeyword "else" refusing).compileSource source = .ok c ∧
      (("else" : Text), []) ∈ c.calls := by
  intro refusing plain more source
  obtain ⟨hsame, -, -, -, halone, hreached⟩ := sources_reach_three_words
  have hagree : ∀ word ∈ sourceKeywords, more.keywords[word]? = plain.keywords[word]? := by
    intro word hword
    simp only [sourceKeywords, List.mem_cons, List.not_mem_nil, or_false] at hword
    rcases hword with rfl | rfl | rfl <;> rfl
  obtain ⟨hcompiled, hlisting⟩ := hsame more plain source rfl hagree
  exact ⟨⟨hcompiled, hlisting.trans (by decide +kernel)⟩,
    halone "foo" (.intro 'f' ['o', 'o'] (by decide) (by decide)) (by decide),
    hreached plain refusing "else" (by decide)⟩

end Scriptlet
