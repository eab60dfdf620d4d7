import Mathlib
import Scriptlet.Summary
import Scriptlet.Proofs.DeltaEncoding
import Scriptlet.Proofs.HandlerCalls
import Scriptlet.Proofs.Safety

/-!
# Summaries add up

A summary counts the statements of a listing and checks nothing.  That its numbers fit together is a
fact about the compiler.

**Counting.**  The counts of a summary are numbers of occurrences, and there is one for each
mnemonic of the listing, so their sum is the length (`Summary.sum_counts`).

**Accounts.**  What the compiler emits at a token does not balance by itself: a branch is closed
much later, an `if` is dispatched before its branch is emitted, and a `load` needs the `var` of the
token before.  `Tallies` keeps accounts for these: the blocks open, the head that is being read,
the name right before.  One token keeps them (`Move.tallies`), and they add along a run
(`Reads.tallies`).  At the end of a program all accounts are empty.

* **`report_adds_up`** — the summary of the listing of a source.
-/

namespace Scriptlet

open Compile

/-! ## Counting -/

/-- How often a mnemonic occurs. -/
def occurrences (name : Text) (l : List Statement) : Nat :=
  l.countP (·.mnemonic = name)

@[simp] lemma occurrences_nil (name : Text) : occurrences name [] = 0 := rfl

@[simp] lemma occurrences_cons (name : Text) (s : Statement) (l : List Statement) :
    occurrences name (s :: l) = occurrences name l + if s.mnemonic = name then 1 else 0 := by
  simp [occurrences, List.countP_cons]

@[simp] lemma occurrences_append (name : Text) (l l' : List Statement) :
    occurrences name (l ++ l') = occurrences name l + occurrences name l' :=
  List.countP_append

lemma eraseDups_nodup {α : Type} [DecidableEq α] (l : List α) : l.eraseDups.Nodup := by
  induction hn : l.length using Nat.strong_induction_on generalizing l with
  | _ n ih =>
      cases l with
      | nil => simp
      | cons a l =>
          have hshorter : (l.filter fun b => !b == a).length < n := by
            rw [← hn, List.length_cons]
            exact Nat.lt_succ_of_le (List.length_filter_le _ _)
          rw [List.eraseDups_cons, List.nodup_cons]
          refine ⟨?_, ih _ hshorter _ rfl⟩
          simp [List.mem_eraseDups]

namespace Summary

/-- The number that a summary gives for a mnemonic. -/
def count (r : Summary) (name : Text) : Nat :=
  (r.counts.lookup name).getD 0

lemma mem_mnemonics {listing : List Statement} {name : Text} :
    name ∈ mnemonics listing ↔ ∃ s ∈ listing, s.mnemonic = name := by
  simp [mnemonics, List.mem_eraseDups, List.mem_mergeSort]

lemma count_ofListing (listing : List Statement) (name : Text) :
    (ofListing listing).count name = occurrences name listing := by
  unfold count ofListing
  by_cases h : name ∈ mnemonics listing
  · rw [List.lookup_graph _ h]
    rfl
  · have hnone : ((mnemonics listing).map fun name =>
        (name, listing.countP (·.mnemonic = name))).lookup name = none := by
      rw [List.lookup_eq_none_iff]
      intro entry hentry
      obtain ⟨other, hother, rfl⟩ := List.mem_map.mp hentry
      simp only [bne_iff_ne]
      rintro rfl
      exact h hother
    have hzero : occurrences name listing = 0 := by
      refine List.countP_eq_zero.mpr fun s hs hname => h ?_
      exact mem_mnemonics.mpr ⟨s, hs, by simpa using hname⟩
    rw [hnone, hzero]
    rfl

/-- **The counts add up to the number of statements.** -/
theorem sum_counts (listing : List Statement) :
    ((ofListing listing).counts.map Prod.snd).sum = listing.length := by
  have hperm : (mnemonics listing).Perm (listing.map Statement.mnemonic).dedup := by
    refine (List.perm_ext_iff_of_nodup (eraseDups_nodup _) (List.nodup_dedup _)).mpr fun name => ?_
    rw [← mnemonics, mem_mnemonics, List.mem_dedup, List.mem_map]
  have hcounts : (ofListing listing).counts.map Prod.snd
      = (mnemonics listing).map fun name => (listing.map Statement.mnemonic).count name := by
    rw [ofListing, List.map_map]
    refine List.map_congr_left fun name _ => ?_
    rw [List.count_eq_countP, List.countP_map]
    rfl
  rw [hcounts, (hperm.map _).sum_eq, List.sum_map_count_dedup_eq_length, List.length_map]

end Summary

/-! ## Accounts -/

/-- Whether the token is the word of a condition. -/
def Token.isCondition (t : Token) : Bool :=
  t.kind = .keyword && t.literal = "if"

/-- Whether the statement marks a type or an operator, or is an operand of an expression. -/
def Statement.isPlain : Statement → Bool
  | type _ | operator _ | push _ | get _ => true
  | _ => false

/-- The mnemonics that accounts are kept of. -/
def accounts : List Text :=
  ["scope", "begin", "branch", "end", "test", "cmp", "load", "set", "var"]

lemma Statement.mnemonic_of_isPlain {s : Statement} (h : s.isPlain) :
    ∀ name ∈ accounts, s.mnemonic ≠ name := by
  have hnames : ∀ plain ∈ (["type", "op", "push", "get"] : List Text), ∀ name ∈ accounts,
      plain ≠ name := by decide
  refine hnames s.mnemonic ?_
  cases s with
  | type _ | operator _ | push _ | get _ => simp [Statement.mnemonic]
  | _ => cases h

namespace Compile

/-- The heads that are being read. -/
def State.heads (s : State) : Nat :=
  match s.place with
  | .head _ _ _ _ => 1
  | _ => 0

/-- The names right before a statement, to which an equals sign could assign. -/
def State.names (s : State) : Nat :=
  match s.place with
  | .statement => if s.previous.any (·.kind = .identifier) then 1 else 0
  | _ => 0

/-- A head that is being read is that of a condition. -/
def Place.IsCondition : Place → Prop
  | .head handler _ _ _ => handler = Condition.head
  | _ => True

end Compile

/-- **The accounts of a run** from one state to another, on which so many words of conditions are
dispatched and these statements emitted. -/
structure Tallies (s : State) (conditions : Nat) (out : List Statement) (s' : State) : Prop where
  scopes : occurrences "scope" out = 0
  begins : occurrences "begin" out = 0
  conditions : conditions + s.heads = occurrences "branch" out + s'.heads
  blocks : s.blocks.length + occurrences "branch" out = s'.blocks.length + occurrences "end" out
  tests : occurrences "test" out = occurrences "branch" out + occurrences "cmp" out
  sets : occurrences "load" out = occurrences "set" out
  names : occurrences "load" out + s'.names ≤ occurrences "var" out + s.names

namespace Tallies

variable {s s' s'' : State} {n n' : Nat} {out out' : List Statement}

lemma nil (s : State) : Tallies s 0 [] s := by
  constructor <;> simp

lemma append (h : Tallies s n out s') (h' : Tallies s' n' out' s'') :
    Tallies s (n + n') (out ++ out') s'' := by
  obtain ⟨hscopes, hbegins, hconditions, hblocks, htests, hsets, hnames⟩ := h
  obtain ⟨hscopes', hbegins', hconditions', hblocks', htests', hsets', hnames'⟩ := h'
  constructor <;> simp only [occurrences_append] <;> omega

/-- Markers and operands are on no account. -/
lemma plain (hout : ∀ u ∈ out, u.isPlain) (hheads : n + s.heads = s'.heads)
    (hblocks : s'.blocks = s.blocks) (hnames : s'.names ≤ s.names) : Tallies s n out s' := by
  have hzero : ∀ name, name ∈ accounts → occurrences name out = 0 := by
    intro name hname
    refine List.countP_eq_zero.mpr fun u hu => ?_
    simpa using Statement.mnemonic_of_isPlain (hout u hu) name hname
  constructor <;> simp (disch := decide) only [hzero]
  · omega
  · rw [hblocks]
  · omega

end Tallies

/-- The words of conditions that a step dispatches. -/
def Compile.Step.conditions (step : Step) : Nat :=
  step.dispatches.countP (·.2.isCondition)

section Moves

variable {strict : Bool} {d : Dialect} {s s' : State} {t : Token}

lemma Keywords.standard_word {word : Text} {handler : Handler}
    (h : Keywords.standard[word]? = some handler) : word = "if" := by
  simp only [Keywords.standard, Std.TreeMap.getElem?_insert, Std.TreeMap.getElem?_emptyc] at h
  split_ifs at h with hword
  exact (Std.LawfulEqCmp.eq_of_compare hword).symm

lemma Keywords.standard_none {word : Text} (h : Keywords.standard[word]? = none) : word ≠ "if" := by
  rintro rfl
  cases h

lemma step_conditions_other (h : t.isCondition = false) : (d.step s t).conditions = 0 := by
  rcases step_dispatches d s t with ⟨-, hsites⟩ | ⟨-, hsites⟩ <;>
    simp [Step.conditions, hsites, h]

lemma step_conditions_silent (h : ¬ s.Dispatches t) : (d.step s t).conditions = 0 := by
  rcases step_dispatches d s t with ⟨hs, -⟩ | ⟨-, hsites⟩
  · exact absurd hs h
  · simp [Step.conditions, hsites]

/-- **The accounts of one token.** -/
theorem Move.tallies {out : List Statement} (hmove : Move ⟨.standard, strict⟩ s t out s')
    (hs : s.place.IsCondition) :
    Tallies s (Dialect.step ⟨.standard, strict⟩ s t).conditions out s' ∧ s'.place.IsCondition := by
  cases hmove with
  | type hplace hk =>
      rw [step_conditions_other (by simp [Token.isCondition, hk])]
      refine ⟨.plain (fun u hu => ?_) ?_ rfl ?_, hs⟩
      · rw [Modes.mem_typeMarker hu]
        rfl
      · simp [State.heads, State.read]
      · simp [State.names, State.read, hplace, hk]
  | declare hplace hk =>
      rw [step_conditions_other (by simp [Token.isCondition, hk])]
      refine ⟨?_, hs⟩
      constructor <;>
        simp +decide [Statement.mnemonic, State.heads, State.names, State.read, hplace, hk]
  | @equals name hplace hk hprevious hname =>
      rw [step_conditions_other (by simp [Token.isCondition, hk])]
      refine ⟨?_, trivial⟩
      -- the name right before pays for the `load`; the marker behind it is on no account
      show Tallies s (0 + 0) _ _
      refine .append ?_ (.plain (fun u hu => ?_) (Nat.zero_add _) rfl le_rfl)
      · constructor <;> simp +decide [Statement.mnemonic, State.heads, State.names, State.read,
          hplace, hprevious, hname]
      · rw [Modes.mem_restartMarker hu]
        rfl
  | ignored hplace hk hnone hstrict =>
      have hword : t.literal ≠ "if" := Keywords.standard_none hnone
      rw [step_conditions_other (by simp [Token.isCondition, hword])]
      exact ⟨.plain (by simp) (by simp [State.heads, State.read]) rfl
        (by simp [State.names, State.read, hplace, hk]), hs⟩
  | keyword hplace hk hsome =>
      have hword : t.isCondition = true := by
        simp [Token.isCondition, hk, Keywords.standard_word hsome]
      have hone : (Dialect.step ⟨.standard, strict⟩ s t).conditions = 1 := by
        rcases step_dispatches ⟨.standard, strict⟩ s t with ⟨-, hsites⟩ | ⟨hnot, -⟩
        · simp [Step.conditions, hsites, hword]
        · exact absurd ⟨hplace, by simp [hk]⟩ hnot
      rw [hone]
      -- nothing is emitted yet: the condition is owed by the head
      refine ⟨.plain (by simp) ?_ rfl ?_, Keywords.standard_handler hsome⟩
      · simp [State.heads, hplace]
      · simp [State.names]
  | closing hplace hk hblocks =>
      rw [step_conditions_other (by simp [Token.isCondition, hk])]
      refine ⟨?_, hs⟩
      constructor <;>
        simp +decide [State.heads, State.names, State.read, hplace, hk, hblocks]
  | operand hplace hk =>
      rw [step_conditions_silent (by simp [State.Dispatches, hplace])]
      refine ⟨.plain (fun u hu => ?_) ?_ rfl ?_, trivial⟩
      · obtain ⟨-, -, rfl | rfl | rfl⟩ := mem_expressionCode hu <;> rfl
      · simp [State.heads, hplace]
      · simp [State.names]
  | terminator hplace hk =>
      rw [step_conditions_silent (by simp [State.Dispatches, hplace])]
      refine ⟨.plain (by simp) ?_ rfl ?_, trivial⟩
      · simp [State.heads, hplace]
      · simp [State.names, State.read, hk]
  | head hplace hk =>
      rw [step_conditions_silent (by simp [State.Dispatches, hplace])]
      rw [hplace] at hs
      refine ⟨.plain (by simp) ?_ rfl ?_, hs⟩
      · simp [State.heads, hplace]
      · simp [State.names]
  | opening hplace hk hfront =>
      rw [step_conditions_silent (by simp [State.Dispatches, hplace])]
      rw [hplace] at hs
      refine ⟨?_, trivial⟩
      rw [show _ = Condition.head from hs] at hfront
      rcases Condition.head_cases hfront with ⟨a, -, rfl⟩ | ⟨a, c, b, -, rfl⟩ <;>
        constructor <;> simp +decide [Statement.mnemonic, Statement.opensBlock, State.heads,
          State.names, State.read, hplace, hk]

/-- **The accounts of a run.** -/
theorem Reads.tallies {ts : List Token} {out : List Statement}
    (hreads : Reads ⟨.standard, strict⟩ s ts out s') (hs : s.place.IsCondition) :
    Tallies s ((Dialect.compileFrom ⟨.standard, strict⟩ s ts).dispatches.countP (·.2.isCondition))
      out s' := by
  induction ts generalizing s out with
  | nil =>
      obtain rfl : s = s' := Except.ok.inj hreads.next
      obtain rfl : out = [] := hreads.statements.symm
      rw [compileFrom_dispatches_nil]
      exact .nil s
  | cons t ts ih =>
      obtain ⟨s₁, hstep, hrest, rfl⟩ := hreads.first
      obtain ⟨htally, hs₁⟩ := (Move.of_step hstep).tallies hs
      rw [compileFrom_dispatches_cons, List.countP_append]
      simp only [hstep]
      exact htally.append (ih hrest hs₁)

end Moves

/-! ## The summary of a listing -/

section Listings

variable {strict : Bool} {ts : List Token} {listing : List Statement}

/-- Every marker behind the first three statements is of a type or an operator, and names another
one than the last marker of its kind before it. -/
lemma marker_changes (h : (Dialect.compile ⟨.standard, strict⟩ ts).listing = .ok listing) {i : Nat}
    {s : Statement} (hi : 3 ≤ i) (hs : listing[i]? = some s) (hmarker : s.isMarker) :
    (∃ name before, s = .type name ∧ lastType (listing.take i) = some before ∧ before ≠ name) ∨
      ∃ op before, s = .operator op ∧ lastOperator (listing.take i) = some before ∧ before ≠ op := by
  obtain ⟨out, s', hreads, -, rfl⟩ := listing_eq_ok_iff_reads.mp h
  have hconditional : ∀ (word : Text) (handler : Handler), Keywords.standard[word]? = some handler →
      Handler.OnlyConditional handler := by
    intro word handler hsome
    rw [Keywords.standard_handler hsome]
    exact Condition.head_onlyConditional
  obtain ⟨j, rfl⟩ := Nat.exists_eq_add_of_le hi
  have hout : out[j]? = some s := by
    rwa [List.getElem?_append_right hi, show 3 + j - seedMarkers.length = j from
      Nat.add_sub_cancel_left 3 j] at hs
  rw [← Dialect.sites_statements hreads, List.getElem?_map] at hout
  obtain ⟨site, hsite, rfl⟩ := Option.map_eq_some_iff.mp hout
  have hfits := (Dialect.sitesFrom_fits hconditional rfl rfl hreads reflects_initial site
    (List.mem_of_getElem? hsite)).1
  obtain ⟨htype, hoperator⟩ :=
    Dialect.sites_marked (Dialect.standard_setsNoMode strict) hreads hsite
  cases hstatement : site.statement with
  | scope name => exact absurd hstatement (hfits.scope name)
  | type name => exact .inl ⟨name, _, rfl, htype, hfits.type_changes name hstatement⟩
  | operator op => exact .inr ⟨op, _, rfl, hoperator, hfits.operator_changes op hstatement⟩
  | _ => simp [hstatement, Statement.isMarker] at hmarker

/-- The token at a position is an `if` that stands where a statement may start. -/
def Dialect.ConditionAt (d : Dialect) (ts : List Token) (i : Nat) : Prop :=
  ∃ before t after depth, ts = before ++ t :: after ∧ before.length = i ∧ t.isCondition ∧
    d.AtStatement before depth

/-- The positions of the words of conditions that are dispatched. -/
def Compilation.conditionSites (c : Compilation) : List Nat :=
  (c.dispatches.filter (·.2.isCondition)).map Prod.fst

lemma conditionSites_sorted (d : Dialect) : (d.compile ts).conditionSites.Pairwise (· < ·) :=
  List.pairwise_map.mpr (compileFrom_dispatches_sorted.2.filter _)

lemma mem_conditionSites {d : Dialect} {i : Nat} :
    i ∈ (d.compile ts).conditionSites ↔ d.ConditionAt ts i := by
  simp only [Compilation.conditionSites, List.mem_map, List.mem_filter, Prod.exists,
    exists_and_right, exists_eq_right]
  constructor
  · rintro ⟨t, hsite, ht⟩
    obtain ⟨before, after, depth, hts, hi, hstatement, -⟩ := mem_dispatches_iff.mp hsite
    exact ⟨before, t, after, depth, hts, hi, ht, hstatement⟩
  · rintro ⟨before, t, after, depth, hts, hi, ht, hstatement⟩
    have hk : t.kind = .keyword := by simp_all [Token.isCondition]
    refine ⟨t, mem_dispatches_iff.mpr ⟨before, after, depth, hts, hi, hstatement, ?_⟩, ht⟩
    simp [hk]

/-- The accounts of a whole listing, behind the first three statements: nothing is left open. -/
lemma listing_tallies (h : (Dialect.compile ⟨.standard, strict⟩ ts).listing = .ok listing) :
    ∃ out s', listing = seedMarkers ++ out ∧ s'.heads = 0 ∧ s'.blocks = [] ∧
      Tallies .initial (Dialect.compile ⟨.standard, strict⟩ ts).conditionSites.length out s' := by
  obtain ⟨out, s', hreads, hfinish, rfl⟩ := listing_eq_ok_iff_reads.mp h
  obtain ⟨hheads, hblocks⟩ : s'.heads = 0 ∧ s'.blocks = [] := by
    unfold State.finish at hfinish
    split at hfinish
    · next hplace hblocks => exact ⟨by simp only [State.heads, hplace], hblocks⟩
    all_goals cases hfinish
  have htally := hreads.tallies trivial
  rw [← compile_dispatches, List.countP_eq_length_filter] at htally
  exact ⟨out, s', rfl, hheads, hblocks, by rwa [Compilation.conditionSites, List.length_map]⟩

lemma occurrences_marker (l : List Statement) :
    l.countP Statement.isMarker
      = occurrences "scope" l + occurrences "type" l + occurrences "op" l := by
  induction l with
  | nil => rfl
  | cons s l ih =>
      rw [List.countP_cons, ih]
      cases s <;> simp +decide [Statement.isMarker, Statement.mnemonic] <;> omega

lemma occurrences_end (l : List Statement) : l.countP (· = .endBlock) = occurrences "end" l := by
  refine List.countP_congr fun s _ => ?_
  cases s <;> simp +decide [Statement.mnemonic]

end Listings

/-- **The summary of a listing adds up**, for every source that compiles.

The counts are numbers of occurrences, and their sum is the length of the listing.  There is one
scope.  The mode switches are the markers of types and operators but for the first of each, and
each of them names another mode than the marker of its kind before it.  Blocks are opened by
branches only, one for each `if` where a statement may start, and each is closed.  For each branch
and each comparison there is a test.  Variables are loaded and set together, and not more often
than declared. -/
theorem report_adds_up (strict : Bool) (source : Text) (listing : List Statement)
    (h : Dialect.listing ⟨.standard, strict⟩ source = .ok listing) :
    let r := Summary.ofListing listing
    (∀ name, r.count name = listing.countP (·.mnemonic = name)) ∧
    (r.counts.map Prod.snd).sum = r.total ∧ r.total = listing.length ∧
    r.count "scope" = 1 ∧
    r.modeSwitches + 2 = r.count "type" + r.count "op" ∧
    r.blocks = r.count "end" ∧ r.blocks = r.count "branch" ∧ r.count "begin" = 0 ∧
    (∃ (ts : List Token) (sites : List Nat), scan source = .ok ts ∧ r.blocks = sites.length ∧
      sites.Pairwise (· < ·) ∧ ∀ i, i ∈ sites ↔ Dialect.ConditionAt ⟨.standard, strict⟩ ts i) ∧
    r.count "test" = r.count "branch" + r.count "cmp" ∧
    r.count "load" = r.count "set" ∧ r.count "load" ≤ r.count "var" ∧
    ∀ i s, 3 ≤ i → listing[i]? = some s → s.isMarker →
      (∃ name before, s = .type name ∧ lastType (listing.take i) = some before ∧ before ≠ name) ∨
      ∃ op before, s = .operator op ∧ lastOperator (listing.take i) = some before ∧ before ≠ op := by
  intro r
  obtain ⟨ts, hscan, hcompile⟩ := Dialect.listing_eq_ok h
  have hchanges := fun i s => marker_changes hcompile (i := i) (s := s)
  obtain ⟨out, s', hout, hheads, hblocks, htally⟩ := listing_tallies hcompile
  have hopened : occurrences "branch" out = occurrences "end" out := by
    have hclosed : 0 + occurrences "branch" out = s'.blocks.length + occurrences "end" out :=
      htally.blocks
    simpa [hblocks] using hclosed
  have hcount : ∀ name, r.count name = occurrences name seedMarkers + occurrences name out := by
    intro name
    rw [Summary.count_ofListing, hout, occurrences_append]
  have hswitches : r.modeSwitches = occurrences "type" out + occurrences "op" out := by
    have hdrop : listing.drop Summary.headLength = out := by rw [hout]; rfl
    show (listing.drop Summary.headLength).countP Statement.isMarker = _
    rw [hdrop, occurrences_marker, htally.scopes, Nat.zero_add]
  have hends : r.blocks = r.count "end" := by
    rw [Summary.count_ofListing]
    exact occurrences_end listing
  -- of the mnemonics with an account, the first three statements have only that of the scope
  have hseeds : ∀ name ∈ accounts, name ≠ "scope" → occurrences name seedMarkers = 0 := by decide
  have hcounted : ∀ name ∈ accounts, name ≠ "scope" → r.count name = occurrences name out := by
    intro name hname hscope
    rw [hcount, hseeds name hname hscope, Nat.zero_add]
  have hend := hcounted "end" (by decide) (by decide)
  have hbranch := hcounted "branch" (by decide) (by decide)
  have hcmp := hcounted "cmp" (by decide) (by decide)
  have hload := hcounted "load" (by decide) (by decide)
  refine ⟨Summary.count_ofListing listing, Summary.sum_counts listing, rfl, ?_, ?_, hends, ?_, ?_,
    ⟨ts, _, hscan, ?_, conditionSites_sorted _, fun i => mem_conditionSites⟩, ?_, ?_, ?_,
    fun i s hi hs hmarker => hchanges i s hi hs hmarker⟩
  · rw [hcount, htally.scopes]
    rfl
  · have htypes : occurrences "type" seedMarkers = 1 := by decide
    have hoperators : occurrences "op" seedMarkers = 1 := by decide
    rw [hswitches, hcount, hcount, htypes, hoperators]
    omega
  · rw [hends, hend, hbranch, hopened]
  · rw [hcounted "begin" (by decide) (by decide), htally.begins]
  · have hconditions := htally.conditions
    rw [hheads] at hconditions
    rw [hends, hend, ← hopened]
    exact hconditions.symm
  · rw [hcounted "test" (by decide) (by decide), hbranch, hcmp, htally.tests]
  · rw [hload, hcounted "set" (by decide) (by decide), htally.sets]
  · rw [hload, hcounted "var" (by decide) (by decide)]
    exact (Nat.le_add_right _ _).trans htally.names

/-- A block in a block, one with a comparison and one with a single operand.  The last name is
declared and not loaded. -/
theorem report_adds_up_nested :
    let source : Text := "float a = 1 * 2; if a < 3 \x7b if a \x7b a = 4; \x7d \x7d b"
    let listing : List Statement :=
      [.scope "global", .type "int", .operator "+", .type "float", .declare "a", .load "a",
        .clear "0", .push "1", .operator "*", .push "2", .test "a", .test "3", .compare "<", .branch,
        .test "a", .branch, .declare "a", .load "a", .clear "0", .operator "+", .push "4", .endBlock,
        .endBlock, .declare "b"]
    let r := Summary.ofListing listing
    Dialect.listing ⟨.standard, true⟩ source = .ok listing ∧ r.count "branch" = 2 ∧
      r.count "test" = 3 ∧ r.modeSwitches = 3 ∧ r.count "type" + r.count "op" = 5 ∧
      (r.counts.map Prod.snd).sum = 24 ∧
      ∃ (ts : List Token) (sites : List Nat), scan source = .ok ts ∧ sites.length = 2 ∧
        ∀ i, i ∈ sites ↔ Dialect.ConditionAt ⟨.standard, true⟩ ts i := by
  intro source listing r
  have hlisting : Dialect.listing ⟨.standard, true⟩ source = .ok listing := by decide +kernel
  obtain ⟨hcount, hsum, -, -, hswitches, -, hbranch, -, ⟨ts, sites, hscan, hsites, -, hmem⟩, -⟩ :=
    report_adds_up true source listing hlisting
  have hblocks : r.blocks = 2 := by decide
  have hmodes : r.modeSwitches = 3 := by decide
  refine ⟨hlisting, hbranch ▸ hblocks, ?_, hmodes, ?_, hsum, ts, sites, hscan, hsites ▸ hblocks,
    hmem⟩
  · rw [hcount]
    decide
  · rw [← hswitches, hmodes]

end Scriptlet
