import Mathlib
import Scriptlet.Proofs.Colouring
import Scriptlet.Proofs.Listings
import Scriptlet.Proofs.Logging

/-!
# A listing without colours is the listing

There are two commands that show the listing of a script.  One prints its text; the other cuts the
text into pieces for colouring and prints the pieces.  Without colours they should not differ.

**Pieces.**  Cutting loses no character, so without colours what is printed is the text with its
lines ended by bare newlines (`Highlight.render_plain`).  That is the text itself if it is written
in characters and has no carriage return (`Text.IsPlain`).

**Listings.**  The operands of a compiled listing are texts of tokens or words of the compiler.  A
token is made of characters that are read, whatever bytes were there, and a carriage return is
blank and belongs to no token; so the text of a compiled listing is plain
(`Dialect.format_isPlain`).

**Commands.**  Both commands read, compile and fail in the same way, and differ only in what they
do with the listing (`Command.withListing_congr`).

* **`uncoloured_listing_is_compiled`** — on every host the two are one program, and what it prints
  is the text of the listing or the message of the error.
-/

namespace Scriptlet

/-! ## Plain text -/

/-- The text is written in characters, and none of them is a carriage return. -/
def Text.IsPlain (t : Text) : Prop :=
  ∃ cs, t = .ofChars cs ∧ '\r' ∉ cs

namespace Text.IsPlain

lemma ofString {s : String} (h : '\r' ∉ s.toList) : (Text.ofString s).IsPlain :=
  ⟨s.toList, rfl, h⟩

lemma append {a b : Text} (ha : a.IsPlain) (hb : b.IsPlain) : (a ++ b).IsPlain := by
  obtain ⟨cs, rfl, hcs⟩ := ha
  obtain ⟨ds, rfl, hds⟩ := hb
  refine ⟨cs ++ ds, congrArg Text.mk ?_, by simp [hcs, hds]⟩
  rw [List.flatMap_append]
  rfl

lemma concat {pieces : List Text} (h : ∀ t ∈ pieces, t.IsPlain) : (Text.concat pieces).IsPlain := by
  induction pieces with
  | nil => exact ⟨[], rfl, by simp⟩
  | cons t pieces ih => exact append (h t (by simp)) (ih fun u hu => h u (by simp [hu]))

/-- Texts of tokens are plain: a carriage return is blank. -/
lemma ofToken {kind : Kind} {text rest : List Char} (h : IsLexeme (.token kind) text rest) :
    (Text.ofChars text).IsPlain := by
  refine ⟨text, rfl, fun hmem => ?_⟩
  have hblank := h.solid.chars '\r' (by rwa [chars_ofChars])
  exact absurd hblank (by decide)

end Text.IsPlain

/-- **The text of a compiled listing is plain.** -/
theorem Dialect.format_isPlain {strict : Bool} {source : Text} {listing : List Statement}
    (h : Dialect.listing ⟨.standard, strict⟩ source = .ok listing) : (format listing).IsPlain := by
  have hoperands := Dialect.listing_operands (P := Text.IsPlain) h .ofToken fun word hword => by
    refine .ofString ?_
    have hwords : ∀ word ∈ ["global", "int", "+", "0", "false"], '\r' ∉ word.toList := by decide
    exact hwords word hword
  refine .concat fun line hline => ?_
  obtain ⟨s, hs, rfl⟩ := List.mem_map.mp hline
  have hmnemonic : s.mnemonic.IsPlain := by
    cases s <;> exact .ofString (by decide)
  refine .append ?_ (.ofString (by decide))
  unfold Statement.render
  split_ifs with hempty
  · exact hmnemonic
  · have hoperand : s.operand.IsPlain := by
      refine hoperands s hs ?_
      by_contra hnone
      rw [Statement.operand_eq_empty (by simpa using hnone)] at hempty
      exact hempty rfl
    refine .concat fun piece hpiece => ?_
    simp only [List.mem_cons, List.not_mem_nil, or_false] at hpiece
    rcases hpiece with rfl | rfl | rfl
    · exact hmnemonic
    · exact .ofString (by decide)
    · exact hoperand

/-! ## Pieces without colours -/

namespace Highlight

/-- Without a carriage return all lines end in bare newlines. -/
lemma bareNewlines_of_not_mem {cs : List Char} (h : '\r' ∉ cs) : bareNewlines cs = cs := by
  induction cs using bareNewlines.induct with
  | case1 => rfl
  | case2 rest _ => simp at h
  | case3 rest _ _ => simp at h
  | case4 c rest hc hc' ih =>
      rw [bareNewlines.eq_4 _ _ hc hc', ih fun hmem => h (by simp [hmem])]

/-- **Without colours the pieces are the text with plain line ends**, whatever the rules and the
style. -/
theorem render_plain (style : Style) (g : Grammar) (t : Text) :
    render .plain style g t = plainLines t := by
  have hpieces : (tokenise g t).map (Formatter.plain.piece style)
      = (tokenise g t).map fun p => .ofChars p.text := rfl
  rw [render, hpieces, plainLines, ← flatMap_pieces g none (bareNewlines t.chars)]
  simp only [Text.concat, Text.ofChars, tokenise, List.flatMap_map, List.flatMap_assoc]

lemma plainLines_of_isPlain {t : Text} (h : t.IsPlain) : plainLines t = t := by
  obtain ⟨cs, rfl, hcs⟩ := h
  rw [plainLines, Text.chars_ofChars, bareNewlines_of_not_mem hcs]

end Highlight

/-! ## The two commands -/

/-- What is done with a listing matters only for the listings that there are. -/
lemma Command.withListing_congr {m : Type → Type} [Monad m] [LawfulMonad m] [Host m] (color : Bool)
    {d : Dialect} (path : Text) {next next' : List Statement → m Exit}
    (h : ∀ source listing, d.listing source = .ok listing → next listing = next' listing) :
    withListing color d path next = withListing color d path next' := by
  unfold withListing compileLogged
  congr 1
  funext found
  cases found with
  | error e => rfl
  | ok source =>
      simp only [bind_assoc, pure_bind]
      cases hlisting : d.listing source with
      | error e => rfl
      | ok listing => simp only [h source listing hlisting]

/-- Without colours, colouring a listing is compiling it. -/
lemma Command.highlight_listing_plain {m : Type → Type} [Monad m] [LawfulMonad m] [Host m]
    (strict : Bool) (source style : Text) :
    (highlight false (dialect strict) source true style : m Exit)
      = compile false (dialect strict) source "" := by
  show withListing false (dialect strict) source
      (fun listing => printColoured false style .listing (format listing))
    = withListing false (dialect strict) source _
  refine withListing_congr false source fun text listing hlisting => ?_
  have hplain := Highlight.plainLines_of_isPlain (Dialect.format_isPlain hlisting)
  show (do Host.print (Highlight.render .plain (.ofName style) .listing (format listing))
           return Exit.success) = _
  rw [Highlight.render_plain, hplain]
  rfl

/-- The text that a session has at a path, or its standard input if there is no path. -/
def Session.source (s : Session) (path : Text) : Except FileError Text :=
  if path.isEmpty then .ok s.input else s.files.read path

/-- What there is to see of a script: the text of its listing, or the message of the error. -/
def Dialect.shown (d : Dialect) : Except FileError Text → Exit × Text
  | .error e => (.failure, e.message ++ "\n")
  | .ok source =>
    match d.listing source with
    | .error e => (.failure, e.message ++ "\n")
    | .ok listing => (.success, format listing)

lemma Session.run_source (s : Session) (path : Text) :
    (Host.source path : StateM Session _).run s = (s.source path, s) := by
  unfold Host.source Session.source
  split_ifs <;> rfl

/-- Compiling in a session without colours and a target prints what there is to see, and nothing
else. -/
lemma Session.run_compile (s : Session) (d : Dialect) (path : Text) :
    ∃ logged, (Command.compile false d path "" : StateM Session Exit).run s
      = ((d.shown (s.source path)).1,
          { s with printed := s.printed ++ (d.shown (s.source path)).2, logged }) := by
  unfold Command.compile Command.withListing
  rw [StateT.run_bind, Session.run_source]
  cases hsource : s.source path with
  | error e => exact ⟨s.logged, rfl⟩
  | ok source =>
      refine ⟨s.logged ++ d.log s.logLevel source, ?_⟩
      show StateT.run (_ >>= _) s = _
      rw [StateT.run_bind, Session.run_compileLogged]
      cases hlisting : d.listing source with
      | error e =>
          have hshown : d.shown (.ok source) = (.failure, e.message ++ "\n") := by
            simp only [Dialect.shown, hlisting]
          rw [hshown]
          rfl
      | ok listing =>
          have hshown : d.shown (.ok source) = (.success, format listing) := by
            simp only [Dialect.shown, hlisting]
          rw [hshown]
          rfl

/-- The argument that asks for the strict dialect, if it is wanted. -/
def strictly (strict : Bool) : List Text :=
  if strict then ["--strict"] else []

/-- **Without colours, the coloured listing of a script is its compiled listing.**  This is so on
every host, for every script, however strict the dialect is and whatever the style: the command
lines for the two ask for one program.  In a session it prints the text of the listing and
succeeds, or prints the message of the error and fails; no file changes. -/
theorem uncoloured_listing_is_compiled (strict color : Bool) (source style : Text) :
    Invocation.ofArgs ("highlight" :: "--listing" :: "--no-color" :: "--source" :: source
        :: "--style" :: style :: strictly strict)
      = .ok ⟨.highlight source true style, strict, true⟩ ∧
    Invocation.ofArgs ("compile" :: "--no-color" :: "--source" :: source :: strictly strict)
      = .ok ⟨.compile source "", strict, true⟩ ∧
    (∀ (m : Type → Type) [Monad m] [LawfulMonad m] [Host m],
      (Invocation.mk (.highlight source true style) strict true).run color
        = ((Invocation.mk (.compile source "") strict true).run color : m Exit)) ∧
    ∀ s : Session, ∃ logged,
      ((Invocation.mk (.highlight source true style) strict true).run color
          : StateM Session Exit).run s
        = (((Command.dialect strict).shown (s.source source)).1,
            { s with
              printed := s.printed ++ ((Command.dialect strict).shown (s.source source)).2
              logged }) := by
  have hsame : ∀ (m : Type → Type) [Monad m] [LawfulMonad m] [Host m],
      (Invocation.mk (.highlight source true style) strict true).run color
        = ((Invocation.mk (.compile source "") strict true).run color : m Exit) := by
    intro m _ _ _
    show (Command.highlight (color && !true) _ _ _ _ : m Exit)
      = Command.compile (color && !true) _ _ _
    rw [Bool.not_true, Bool.and_false]
    exact Command.highlight_listing_plain strict source style
  refine ⟨by cases strict <;> rfl, by cases strict <;> rfl, hsame, fun s => ?_⟩
  rw [hsame (StateM Session)]
  show ∃ logged, (Command.compile (color && !true) _ _ _ : StateM Session Exit).run s = _
  rw [Bool.not_true, Bool.and_false]
  exact Session.run_compile s _ source

/-- Line ends of the source with a carriage return, and a style that there is not. -/
theorem uncoloured_listing_is_compiled_carriage_returns :
    let s : Session := { input := "int a\r\nif a \x7b\r\n\x7d" }
    let listed : StateM Session Exit :=
      (Invocation.mk (.highlight "" true "none") false true).run true
    let compiled : StateM Session Exit := (Invocation.mk (.compile "" "") false true).run true
    listed = compiled ∧ (listed.run s).1 = .success ∧
      (listed.run s).2.printed
        = "scope global\ntype int\nop +\nvar a\ntest a\nbranch\nend\n" := by
  intro s listed compiled
  obtain ⟨-, -, hsame, hrun⟩ := uncoloured_listing_is_compiled false true "" "none"
  have hshown : (Command.dialect false).shown (s.source "")
      = (Exit.success, ("scope global\ntype int\nop +\nvar a\ntest a\nbranch\nend\n" : Text)) := by
    decide +kernel
  obtain ⟨logged, hlisted⟩ := hrun s
  rw [hshown] at hlisted
  refine ⟨hsame (StateM Session), ?_, ?_⟩
  · rw [hlisted]
  · rw [hlisted]
    rfl

end Scriptlet
