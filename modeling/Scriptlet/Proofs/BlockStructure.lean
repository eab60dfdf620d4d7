import Mathlib
import Scriptlet.Proofs.Execution
import Scriptlet.Proofs.Translation

/-!
# Flat execution is structured execution

A listing is flat: a branch passes over a block by counting openings and ends up to the end that
matches.  A program has blocks.  Here the two meet.

A `Tree` is code with its block structure, `Tree.listing` its flat form, and `Tree.walk` an
interpreter that knows nothing of jumps: it executes the statements of a sequence in order, and for
a choice the condition, then the whole body if the condition is true, then what stands behind the
block.

* `blockLength?_listing` — a tree is passed over as a whole, at whatever depth it stands.
* **`walkFrom_listing`** — running the flat form of a tree in front of any other code is walking
  the tree and then running that code.  This is the statement that goes through the induction: the
  body of a choice has the end of its block behind it.
* `Derives.code_madeOf` — the statements of a program are made of its tokens.
* **`run_eq_tree_walk`** — for whatever the compiler accepts, the run of the listing is the walk of
  the tree of the program.
-/

namespace Scriptlet

open Machine

/-- Code with its block structure. -/
inductive Tree where
  | done
  | single (s : Statement) (rest : Tree)
  /-- A block that is executed if the condition, tested before it, is true. -/
  | choice (condition : List Statement) (body rest : Tree)

namespace Tree

/-- Statements in front of a tree. -/
def sequence (statements : List Statement) (rest : Tree) : Tree :=
  statements.foldr single rest

/-- The flat form. -/
def listing : Tree → List Statement
  | done => []
  | single s rest => s :: rest.listing
  | choice condition body rest =>
    condition ++ .branch :: (body.listing ++ .endBlock :: rest.listing)

/-- **The interpreter of trees.**  The index is the place of the tree in the listing; it only serves
to say which statement was executed. -/
def walk (m : Machine) (index : Nat) : Tree → Walk
  | done => .rest m
  | single s rest => (m.perform index s).andThen (rest.walk · (index + 1))
  | choice condition body rest =>
    let branch := index + condition.length
    let closing := branch + 1 + body.listing.length
    (m.performAll index condition).andThen fun m =>
      match m.conditions with
      | [] => .stop branch m m (some .branch) .emptyCondition
      | c :: below =>
        (Walk.step branch m { m with conditions := below }).andThen fun m =>
          if c.isTrue then
            (body.walk m (branch + 1)).andThen fun m =>
              (Walk.step closing m m).andThen (rest.walk · (closing + 1))
          else rest.walk m (closing + 1)

/-- Only the choices of a tree open and close blocks. -/
def Straight : Tree → Prop
  | done => True
  | single s rest => s.isStraight ∧ rest.Straight
  | choice condition body rest =>
    (∀ s ∈ condition, s.isStraight) ∧ body.Straight ∧ rest.Straight

@[simp] lemma listing_sequence (statements : List Statement) (rest : Tree) :
    (sequence statements rest).listing = statements ++ rest.listing := by
  induction statements with
  | nil => rfl
  | cons s statements ih => exact congrArg (s :: ·) ih

lemma Straight.sequence {statements : List Statement} {rest : Tree}
    (hs : ∀ s ∈ statements, s.isStraight) (hrest : rest.Straight) :
    (Tree.sequence statements rest).Straight := by
  induction statements with
  | nil => exact hrest
  | cons s statements ih =>
      exact ⟨hs s (by simp), ih fun u hu => hs u (by simp [hu])⟩

/-! ## The flat form of a tree -/

/-- A tree is passed over as a whole. -/
lemma blockLength?_listing {t : Tree} (ht : t.Straight) (depth : Nat)
    (rest : List (Option Statement)) :
    blockLength? depth (t.listing.map some ++ rest)
      = (blockLength? depth rest).map (· + t.listing.length) := by
  induction t generalizing depth rest with
  | done => simp [listing]
  | single s t ih =>
      rw [listing, List.map_cons, List.cons_append, blockLength?_straight ht.1, ih ht.2]
      cases blockLength? depth rest <;> simp [Nat.add_assoc]
  | choice condition body t ihbody iht =>
      obtain ⟨hc, hbody, ht⟩ := ht
      rw [listing, List.map_append, List.append_assoc, blockLength?_straights hc, List.map_cons,
        List.cons_append, blockLength?_opens rfl, List.map_append, List.append_assoc,
        ihbody hbody, List.map_cons, List.cons_append, blockLength?_end, iht ht]
      cases blockLength? depth rest with
      | none => rfl
      | some n =>
          simp only [Option.map_some, List.length_append, List.length_cons, Option.some.injEq]
          omega

/-- The block that a body makes with the end behind it is passed over up to that very end. -/
lemma blockLength?_body {body : Tree} (hbody : body.Straight) (rest : List (Option Statement)) :
    blockLength? 0 (body.listing.map some ++ some .endBlock :: rest)
      = some (body.listing.length + 1) := by
  rw [blockLength?_listing hbody]
  simp [blockLength?, Nat.add_comm]

lemma walkFrom_behind_body (body : Tree) (m : Machine) (index : Nat)
    (rest : List (Option Statement)) :
    m.walkFrom index (body.listing.length + 1) (body.listing.map some ++ some .endBlock :: rest)
      = m.walkFrom (index + body.listing.length + 1) 0 rest := by
  rw [walkFrom_skip, ← List.drop_drop]
  simp [Nat.add_assoc]

/-- **The flat form of a tree, in front of other code, runs as the tree is walked.** -/
theorem walkFrom_listing {t : Tree} (ht : t.Straight) (m : Machine) (index : Nat)
    (rest : List (Option Statement)) :
    m.walkFrom index 0 (t.listing.map some ++ rest)
      = (t.walk m index).andThen (·.walkFrom (index + t.listing.length) 0 rest) := by
  induction t generalizing m index rest with
  | done => rfl
  | single s t ih =>
      rw [listing, List.map_cons, List.cons_append, walkFrom_straight ht.1, walk,
        Walk.andThen_assoc]
      congr 1
      funext m
      rw [ih ht.2, List.length_cons, Nat.add_right_comm, Nat.add_assoc]
  | choice condition body t ihbody iht =>
      obtain ⟨hc, hbody, ht⟩ := ht
      rw [listing, List.map_append, List.append_assoc, walkFrom_straights hc, walk,
        Walk.andThen_assoc]
      congr 1
      funext m
      have hbehind : index + (condition ++ .branch :: (body.listing ++
          .endBlock :: t.listing)).length
          = index + condition.length + 1 + body.listing.length + 1 + t.listing.length := by
        simp only [List.length_append, List.length_cons]
        omega
      rw [hbehind]
      simp only [List.map_cons, List.cons_append, List.map_append, List.append_assoc]
      cases hconditions : m.conditions with
      | nil => rw [walkFrom_branch_empty hconditions]; rfl
      | cons c below =>
          cases htrue : c.isTrue with
          | true =>
              -- the body is run in front of the end of its block
              rw [walkFrom_branch_true hconditions htrue]
              simp only [htrue, if_true, Walk.andThen_assoc]
              congr 1
              funext m
              rw [ihbody hbody]
              congr 1
              funext m
              rw [walkFrom_endBlock]
              congr 1
              funext m
              rw [iht ht]
          | false =>
              rw [walkFrom_branch_false hconditions htrue _ (blockLength?_body hbody _)]
              simp only [htrue, Bool.false_eq_true, if_false, Walk.andThen_assoc]
              congr 1
              funext m
              rw [walkFrom_behind_body, iht ht]

end Tree

/-! ## The standard keywords

The only keyword that comes with a handler is `if`, and the handler knows two forms of heads. -/

lemma Keywords.standard_handler {word : Text} {handler : Handler}
    (h : Keywords.standard[word]? = some handler) : handler = Condition.head := by
  simp only [Keywords.standard, Std.TreeMap.getElem?_insert, Std.TreeMap.getElem?_emptyc] at h
  split_ifs at h
  exact (Option.some.inj h).symm

namespace Condition

/-- What the head of a condition tests: an operand, or two and how they compare. -/
def tests : List Token → List Statement
  | [operand] => [.test operand.literal]
  | [left, comparison, right] =>
    [.test left.literal, .test right.literal, .compare comparison.literal]
  | _ => []

/-- The two forms of heads, and what the handler makes of them. -/
lemma head_cases {head : List Token} {front : List Statement}
    (h : Condition.head head = .ok front) :
    (∃ a, head = [a] ∧ front = [.test a.literal, .branch]) ∨
    ∃ a c b, head = [a, c, b] ∧
      front = [.test a.literal, .test b.literal, .compare c.literal, .branch] := by
  match head, h with
  | [a], h =>
      left
      refine ⟨a, rfl, ?_⟩
      simp only [Condition.head, checkOperand] at h
      split_ifs at h <;> simp_all [bind, Except.bind, pure, Except.pure]
  | [a, c, b], h =>
      right
      refine ⟨a, c, b, rfl, ?_⟩
      simp only [Condition.head, checkOperand, checkComparison] at h
      split_ifs at h <;> simp_all [bind, Except.bind, pure, Except.pure]

lemma head_eq_tests {head : List Token} {front : List Statement}
    (h : Condition.head head = .ok front) : front = tests head ++ [.branch] := by
  rcases head_cases h with ⟨a, rfl, rfl⟩ | ⟨a, c, b, rfl, rfl⟩ <;> rfl

lemma tests_straight (head : List Token) : ∀ s ∈ tests head, s.isStraight := by
  unfold tests
  split <;> simp [Statement.isStraight]

end Condition

/-! ## The tree of a program -/

namespace Program

/-- The code of a program that starts in the given modes, with the blocks of the program; every
block is an `if`. -/
def tree (m : Modes) : Program → Tree
  | done => .done
  | type word rest =>
    .sequence (m.typeMarker word.literal) (rest.tree { m with type := word.literal })
  | declare name rest => .single (.declare name.literal) (rest.tree m)
  | assign name _ value _ rest =>
    .single (.declare name.literal) <| .single (.load name.literal) <|
      .single (.clear (if m.type = "int" ∨ m.type = "float" then "0" else "false")) <|
      .sequence m.restartMarker <| .sequence (expressionCode m.restart value) <|
      rest.tree (expressionModes m.restart value)
  | ignored _ rest => rest.tree m
  | block _ head _ _ body _ rest =>
    .choice (Condition.tests head) (body.tree m) (rest.tree (body.modes m))

/-- The whole program behind the three markers. -/
def wholeTree (p : Program) : Tree :=
  .sequence seedMarkers (p.tree ⟨"int", "+"⟩)

end Program

lemma expressionCode_straight (m : Modes) (value : List Token) :
    ∀ s ∈ expressionCode m value, s.isStraight := by
  intro s hs
  obtain ⟨t, -, rfl | rfl | rfl⟩ := mem_expressionCode hs <;> rfl

lemma Program.tree_straight (p : Program) (m : Modes) : (p.tree m).Straight := by
  induction p generalizing m with
  | done => trivial
  | type word rest ih =>
      exact .sequence (fun s hs => by rw [Modes.mem_typeMarker hs]; rfl) (ih _)
  | declare name rest ih => exact ⟨rfl, ih m⟩
  | assign name equals value terminator rest ih =>
      exact ⟨rfl, rfl, rfl, .sequence (fun s hs => by rw [Modes.mem_restartMarker hs]; rfl)
        (.sequence (expressionCode_straight _ _) (ih _))⟩
  | ignored word rest ih => exact ih m
  | block word head opening front body closing rest ihbody ihrest =>
      exact ⟨Condition.tests_straight head, ihbody m, ihrest _⟩

/-- With the standard keywords, the flat form of the tree is the code. -/
lemma Derives.code_eq_listing {strict : Bool} {ts : List Token} {p : Program}
    (h : Derives ⟨.standard, strict⟩ ts p) (m : Modes) : p.code m = (p.tree m).listing := by
  induction h generalizing m with
  | done => rfl
  | type _ _ ih => simp [Program.code, Program.tree, ih]
  | declare _ _ ih => simp [Program.code, Program.tree, Tree.listing, ih]
  | assign _ _ _ _ _ ih => simp [Program.code, Program.tree, Tree.listing, ih]
  | ignored _ _ _ _ ih => exact ih m
  | block _ hsome _ hfront _ _ _ _ ihbody ihrest =>
      rw [Keywords.standard_handler hsome] at hfront
      simp [Program.code, Program.tree, Tree.listing, ihbody, ihrest,
        Condition.head_eq_tests hfront, Statement.opensBlock]

/-- The statements that the compiler makes of tokens, with those that it has of its own. -/
inductive Statement.MadeOf (ts : List Token) : Statement → Prop where
  | type {t : Token} : t ∈ ts → MadeOf ts (.type t.literal)
  | declare {t : Token} : t ∈ ts → t.kind = .identifier → MadeOf ts (.declare t.literal)
  | load {t : Token} : t ∈ ts → t.kind = .identifier → MadeOf ts (.load t.literal)
  | clear {zero : Text} : zero = "0" ∨ zero = "false" → MadeOf ts (.clear zero)
  | restart : MadeOf ts (.operator "+")
  | operator {t : Token} : t ∈ ts → MadeOf ts (.operator t.literal)
  | push {t : Token} : t ∈ ts → MadeOf ts (.push t.literal)
  | get {t : Token} : t ∈ ts → MadeOf ts (.get t.literal)
  | test {t : Token} : t ∈ ts → MadeOf ts (.test t.literal)
  | compare {t : Token} : t ∈ ts → MadeOf ts (.compare t.literal)
  | branch : MadeOf ts .branch
  | beginBlock : MadeOf ts .beginBlock
  | endBlock : MadeOf ts .endBlock

lemma Statement.MadeOf.mono {ts us : List Token} {s : Statement} (h : s.MadeOf ts)
    (hsub : ∀ t ∈ ts, t ∈ us) : s.MadeOf us := by
  cases h with
  | type ht => exact .type (hsub _ ht)
  | declare ht hkind => exact .declare (hsub _ ht) hkind
  | load ht hkind => exact .load (hsub _ ht) hkind
  | clear hzero => exact .clear hzero
  | restart => exact .restart
  | operator ht => exact .operator (hsub _ ht)
  | push ht => exact .push (hsub _ ht)
  | get ht => exact .get (hsub _ ht)
  | test ht => exact .test (hsub _ ht)
  | compare ht => exact .compare (hsub _ ht)
  | branch => exact .branch
  | beginBlock => exact .beginBlock
  | endBlock => exact .endBlock

lemma Condition.head_madeOf {head : List Token} {front : List Statement}
    (h : Condition.head head = .ok front) : ∀ s ∈ front, s.MadeOf head := by
  intro s hs
  rcases Condition.head_cases h with ⟨a, rfl, rfl⟩ | ⟨a, c, b, rfl, rfl⟩ <;>
    simp only [List.mem_cons, List.not_mem_nil, or_false] at hs
  · rcases hs with rfl | rfl
    · exact .test (by simp)
    · exact .branch
  · rcases hs with rfl | rfl | rfl | rfl
    · exact .test (by simp)
    · exact .test (by simp)
    · exact .compare (by simp)
    · exact .branch

/-- **The statements of a program are made of its tokens.** -/
theorem Derives.code_madeOf {strict : Bool} {ts : List Token} {p : Program}
    (h : Derives ⟨.standard, strict⟩ ts p) {m : Modes} {s : Statement} (hs : s ∈ p.code m) :
    s.MadeOf ts := by
  induction h generalizing m with
  | done => simp [Program.code] at hs
  | type _ _ ih =>
      rcases List.mem_append.mp hs with hs | hs
      · rw [Modes.mem_typeMarker hs]
        exact .type (by simp)
      · exact (ih hs).mono (by simp +contextual)
  | declare hname _ ih =>
      rcases List.mem_cons.mp hs with rfl | hs
      · exact .declare (by simp) hname
      · exact (ih hs).mono (by simp +contextual)
  | assign hname _ _ _ _ ih =>
      simp only [Program.code, List.mem_cons, List.mem_append] at hs
      rcases hs with rfl | rfl | rfl | hs | hs | hs
      · exact .declare (by simp) hname
      · exact .load (by simp) hname
      · refine .clear ?_
        split_ifs
        · exact .inl rfl
        · exact .inr rfl
      · rw [Modes.mem_restartMarker hs]
        exact .restart
      · obtain ⟨t, ht, rfl | rfl | rfl⟩ := mem_expressionCode hs
        · exact .push (by simp [ht])
        · exact .get (by simp [ht])
        · exact .operator (by simp [ht])
      · exact (ih hs).mono (by simp +contextual)
  | ignored _ _ _ _ ih => exact (ih hs).mono (by simp +contextual)
  | block _ hsome _ hfront _ _ _ _ ihbody ihrest =>
      rw [Keywords.standard_handler hsome] at hfront
      simp only [Program.code, List.mem_append, List.mem_cons] at hs
      rcases hs with (hs | hs) | hs | rfl | hs
      · exact (Condition.head_madeOf hfront _ hs).mono (by simp +contextual)
      · split_ifs at hs
        · simp at hs
        · rw [List.mem_singleton.mp hs]
          exact .beginBlock
      · exact (ihbody hs).mono (by simp +contextual)
      · exact .endBlock
      · exact (ihrest hs).mono (by simp +contextual)

/-- The walk of a listing is the walk of its tree. -/
lemma Derives.walk_eq {strict : Bool} {ts : List Token} {p : Program}
    (h : Derives ⟨.standard, strict⟩ ts p) (m : Machine) :
    m.walk (seedMarkers ++ p.code ⟨"int", "+"⟩) = p.wholeTree.walk m 0 := by
  have hstraight : p.wholeTree.Straight :=
    .sequence (by simp [seedMarkers, Statement.isStraight]) (p.tree_straight _)
  have hlisting : seedMarkers ++ p.code ⟨"int", "+"⟩ = p.wholeTree.listing := by
    simp [Program.wholeTree, h.code_eq_listing]
  have hwalk := Tree.walkFrom_listing hstraight m 0 []
  rw [List.append_nil] at hwalk
  rw [hlisting, Machine.walk, hwalk]
  exact Walk.andThen_rest _

/-- **Flat execution refines structured execution.**  Whatever list of tokens the compiler accepts
with the standard keywords is a program, and on every machine the run of the listing has the effect
of walking the tree of the program: the same machine at the end, the same error at the same
statement if there is one, and the same statements executed on the way, on the same machines. -/
theorem run_eq_tree_walk (strict : Bool) (ts : List Token) (listing : List Statement)
    (h : (Dialect.compile ⟨.standard, strict⟩ ts).listing = .ok listing) :
    ∃ p, Derives ⟨.standard, strict⟩ ts p ∧ ∀ m : Machine,
      m.run listing = (p.wholeTree.walk m 0).run ∧
      (m.walk listing).visited = (p.wholeTree.walk m 0).visited := by
  obtain ⟨p, hp, rfl⟩ := listing_eq_ok_iff.mp h
  refine ⟨p, hp, fun m => ?_⟩
  rw [← walk_run, hp.walk_eq m]
  exact ⟨rfl, rfl⟩

/-- A block inside a block, and a name behind them. -/
theorem run_eq_tree_walk_nested :
    let ts : List Token :=
      [⟨.keyword, "if", 1, 0⟩, ⟨.number, "0", 1, 3⟩, ⟨.openDelim, "\x7b", 1, 5⟩,
        ⟨.keyword, "if", 1, 7⟩, ⟨.identifier, "a", 1, 10⟩, ⟨.openDelim, "\x7b", 1, 12⟩,
        ⟨.closeDelim, "\x7d", 1, 14⟩, ⟨.identifier, "b", 1, 16⟩, ⟨.closeDelim, "\x7d", 1, 18⟩,
        ⟨.identifier, "c", 1, 20⟩]
    let listing : List Statement :=
      [.scope "global", .type "int", .operator "+", .test "0", .branch, .test "a", .branch,
        .endBlock, .declare "b", .endBlock, .declare "c"]
    (Dialect.compile ⟨.standard, true⟩ ts).listing = .ok listing ∧
      ∃ p, Derives ⟨.standard, true⟩ ts p ∧ ∀ m : Machine,
        m.run listing = (p.wholeTree.walk m 0).run ∧
        (m.walk listing).visited = (p.wholeTree.walk m 0).visited :=
  ⟨by decide +kernel, run_eq_tree_walk true _ _ (by decide +kernel)⟩

end Scriptlet
