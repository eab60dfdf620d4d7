import Mathlib
import Scriptlet.Machine.Value
import Scriptlet.Token.Scanner

/-!
# What the scanner finds

Every token that the scanner finds is a lexeme of the source: its kind and its literal are those of
`Lexeme.front` at some place (`lex_token`, by induction along `lex`).  `Lexeme.front_token` says
which lexemes are tokens: words, numbers and marks.

* `scan_type_literal` — a type token of a source names one of the three types.
-/

namespace Scriptlet

/-- Every token found is the lexeme at the front of some part of the source. -/
lemma lex_token {p : Position} {cs : List Char} {t : Token} (h : t ∈ (lex p cs).tokens) :
    ∃ c rest, (Lexeme.front c rest).shape = .token t.kind ∧
      t.literal = .ofChars (c :: rest.take (Lexeme.front c rest).more) := by
  induction p, cs using lex.induct with
  | case1 p => simp [lex] at h
  | case2 p c cs lexeme text rest hshape ih =>
      rw [lex] at h
      simp only [lexeme] at hshape
      simp only [hshape, Lexed.prepend, List.nil_append] at h
      exact ih h
  | case3 p c cs lexeme text rest kind hshape ih =>
      rw [lex] at h
      simp only [lexeme] at hshape
      simp only [hshape, Lexed.prepend, List.singleton_append, List.mem_cons] at h
      rcases h with rfl | h
      · exact ⟨c, cs, hshape, rfl⟩
      · exact ih h
  | case4 p c cs lexeme hshape =>
      rw [lex] at h
      simp only [lexeme] at hshape
      simp [hshape] at h

lemma scan_token {source : Text} {ts : List Token} (h : scan source = .ok ts) {t : Token}
    (ht : t ∈ ts) :
    ∃ c rest, (Lexeme.front c rest).shape = .token t.kind ∧
      t.literal = .ofChars (c :: rest.take (Lexeme.front c rest).more) := by
  simp only [scan] at h
  split at h
  · rw [← Except.ok.inj h] at ht
    exact lex_token ht
  · simp at h

namespace Lexeme

lemma number_token {rest : List Char} {kind : Kind} (h : (number rest).shape = .token kind) :
    kind = .number := by
  unfold number at h
  split at h
  · dsimp only at h
    split_ifs at h
    exact (Shape.token.inj h).symm
  · exact (Shape.token.inj h).symm

lemma mem_marks {mark : String} {kind : Kind} (h : marks.lookup mark = some kind) :
    (mark, kind) ∈ marks := by
  obtain ⟨before, after, heq, _⟩ := List.lookup_eq_some_iff.mp h
  rw [heq]
  simp

lemma mark_token {c : Char} {rest : List Char} {kind : Kind}
    (h : (mark c rest).shape = .token kind) :
    (String.ofList (c :: rest.take (mark c rest).more), kind) ∈ marks := by
  unfold mark at h ⊢
  cases hpair : pairKind? c rest with
  | some pair =>
      simp only [hpair, Shape.token.injEq] at h ⊢
      cases rest with
      | nil => simp [pairKind?] at hpair
      | cons d rest => exact h ▸ mem_marks hpair
  | none =>
      simp only [hpair] at h ⊢
      cases hsingle : marks.lookup (String.ofList [c]) with
      | some single =>
          simp only [hsingle, Shape.token.injEq] at h ⊢
          exact h ▸ mem_marks hsingle
      | none => simp only [hsingle, reduceCtorEq] at h

/-- **The tokens among the lexemes** are words, numbers and marks. -/
theorem front_token {c : Char} {rest : List Char} {kind : Kind}
    (h : (front c rest).shape = .token kind) :
    kind = wordKind (c :: rest.take (front c rest).more) ∨ kind = .number ∨
      (String.ofList (c :: rest.take (front c rest).more), kind) ∈ marks := by
  unfold front at h ⊢
  split_ifs at h ⊢ with hblank hcomment hword hdigit
  · left
    have hall : rest.take (rest.takeWhile continuesWord).length = rest.takeWhile continuesWord :=
      List.prefix_iff_eq_take.mp (List.takeWhile_prefix _) |>.symm
    simpa [hall] using (Shape.token.inj h).symm
  · exact .inr (.inl (number_token h))
  · exact .inr (.inr (mark_token h))

lemma wordKind_eq_type {word : List Char} (h : wordKind word = .type) :
    String.ofList word ∈ typeWords := by
  unfold wordKind at h
  dsimp only at h
  split_ifs at h with htype
  exact htype

end Lexeme

/-- A type token of a source names a type of the language. -/
theorem scan_type_literal {source : Text} {ts : List Token} (h : scan source = .ok ts) {t : Token}
    (ht : t ∈ ts) (hk : t.kind = .type) : ∃ type, ValueType.ofName? t.literal = some type := by
  obtain ⟨c, rest, hshape, hliteral⟩ := scan_token h ht
  rw [hk] at hshape
  rcases Lexeme.front_token hshape with hword | hnumber | hmark
  · have hmem := Lexeme.wordKind_eq_type hword.symm
    have htext : t.literal
        = .ofString (String.ofList (c :: rest.take (Lexeme.front c rest).more)) := by
      rw [hliteral, Text.ofString, String.toList_ofList]
    generalize String.ofList (c :: rest.take (Lexeme.front c rest).more) = word at hmem htext
    simp only [Lexeme.typeWords, List.mem_cons, List.not_mem_nil, or_false] at hmem
    rw [htext]
    rcases hmem with rfl | rfl | rfl
    · exact ⟨.int, rfl⟩
    · exact ⟨.float, rfl⟩
    · exact ⟨.bool, rfl⟩
  · simp at hnumber
  · simp [Lexeme.marks] at hmark

end Scriptlet
