import Scriptlet.Machine.Stack
import Scriptlet.Machine.Store

/-!
# The machine

The machine executes a listing statement by statement.  It holds the modes that the markers set
(the scope, the type of declarations, the operator), the variables of all scopes, a stack of
targets and a stack of conditions.

* `Machine.execute` — what one statement does: go on, pass over a block, or stop with a fault.
* `Machine.run` — executes a listing up to its end or to the first fault.
* `Machine.dump` — the variables of all scopes as text.

A statement that stops the machine leaves it as it is, with one exception: conditions that a
comparison or a branch has taken are gone.
-/

namespace Scriptlet

structure Machine where
  scopes : Std.TreeMap Text Scope
  /-- The name of the scope in force. -/
  scope : Text
  /-- The name of the type that declared variables get. -/
  type : Text
  /-- The operator that combines values with the target. -/
  operator : Text
  store : Store
  /-- The variables that values go to, the topmost being the one in force. -/
  targets : Stack Location
  conditions : Stack Value

namespace Machine

def globalScope : Text := "global"

def new : Machine where
  scopes := (∅ : Std.TreeMap Text Scope).insert globalScope ∅
  scope := globalScope
  type := ValueType.int.name
  operator := "+"
  store := .empty
  targets := []
  conditions := []

/-! ## Variables -/

/-- The place that a name stands for in the scope in force. -/
def locate? (m : Machine) (name : Text) : Option Location :=
  match m.scopes[m.scope]? with
  | some scope => scope[name]?
  | none => none

/-- The value of a name in the scope in force. -/
def value? (m : Machine) (name : Text) : Option Value :=
  (m.locate? name).bind m.store.read?

/-- The target in force and its value. -/
def target? (m : Machine) : Option (Location × Value) :=
  match m.targets.top? with
  | some l => (m.store.read? l).map (l, ·)
  | none => none

/-- Makes a scope the one in force; a scope that was never entered is empty. -/
def enter (m : Machine) (name : Text) : Machine :=
  { m with scopes := m.scopes.insertIfNew name ∅, scope := name }

/-- Binds a name to a new variable. -/
def declare (m : Machine) (name : Text) (v : Value) : Machine :=
  let (scope, store) := (m.scopes.getD m.scope ∅).declare m.store name v
  { m with scopes := m.scopes.insert m.scope scope, store }

def write (m : Machine) (l : Location) (v : Value) : Machine :=
  { m with store := m.store.write l v }

/-! ## Statements -/

/-- What a statement does. -/
inductive Effect where
  /-- Go on with the next statement. -/
  | next (m : Machine)
  /-- Pass over the block that opens here. -/
  | skip (m : Machine)
  /-- Stop. -/
  | stop (m : Machine) (fault : Fault)

/-- Sets the target to a value that depends on the one it has. -/
def update (m : Machine) (f : Value → Except Fault Value) : Effect :=
  match m.target? with
  | none => .stop m .noTarget
  | some (l, v) =>
    match f v with
    | .ok w => .next (m.write l w)
    | .error fault => .stop m fault

/-- Combines the target with a literal, read as a value of the target's type. -/
def combineLiteral (m : Machine) (literal : Text) (acc : Value) : Except Fault Value := do
  let operand ← Value.read acc.type literal
  Value.combine m.operator acc operand

/-- Combines the target with a variable, converted to the target's type. -/
def combineVariable (m : Machine) (name : Text) (acc : Value) : Except Fault Value := do
  match m.value? name with
  | none => .error (.undefinedVariable name)
  | some v =>
    let operand ← v.convert acc.type
    Value.combine m.operator acc operand

/-- Takes two conditions and puts the result of comparing them in their place. -/
def compareTop (m : Machine) (op : Text) : Effect :=
  match m.conditions with
  | right :: left :: rest =>
    match Value.compare op left right with
    | .ok b => .next { m with conditions := .bool b :: rest }
    | .error fault => .stop { m with conditions := rest } fault
  | _ => .stop { m with conditions := [] } .emptyCondition

/-- Takes a condition and decides by it. -/
def branchTop (m : Machine) : Effect :=
  match m.conditions with
  | [] => .stop m .emptyCondition
  | c :: rest =>
    if c.isTrue then .next { m with conditions := rest } else .skip { m with conditions := rest }

/-- The value that a condition names: a literal, or else a variable. -/
def operand? (m : Machine) (operand : Text) : Option Value :=
  match Value.infer? operand with
  | some v => some v
  | none => m.value? operand

def execute (m : Machine) : Statement → Effect
  | .scope name => .next (m.enter name)
  | .type name =>
    match Value.zeroOf name with
    | .ok _ => .next { m with type := name }
    | .error fault => .stop m fault
  | .operator operator => .next { m with operator }
  | .declare name =>
    match Value.zeroOf m.type with
    | .ok zero => .next (m.declare name zero)
    | .error fault => .stop m fault
  | .load name =>
    match m.locate? name with
    | some l => .next { m with targets := m.targets.push l }
    | none => .stop m (.undefinedVariable name)
  | .clear _ => m.update fun v => Value.zeroOf v.type
  | .push literal => m.update (m.combineLiteral literal)
  | .get name => m.update (m.combineVariable name)
  | .endBlock => .next m
  | .test operand =>
    match m.operand? operand with
    | some v => .next { m with conditions := m.conditions.push v }
    | none => .stop m (.undefinedVariable operand)
  | .compare op => m.compareTop op
  | .branch => m.branchTop
  | .beginBlock => .next m

/-! ## Listings

A listing may have gaps, where a statement is missing.  A gap cannot be executed, but it can be
passed over. -/

def executeSlot (m : Machine) : Option Statement → Effect
  | some s => m.execute s
  | none => .stop m .missingStatement

/-- How many statements lead up to and including the end of the block that is open at their front,
if it is closed.  `depth` blocks are open inside it. -/
def blockLength? (depth : Nat) : List (Option Statement) → Option Nat
  | [] => none
  | some .endBlock :: rest =>
    match depth with
    | 0 => some 1
    | depth + 1 => (blockLength? depth rest).map (· + 1)
  | some s :: rest =>
    (blockLength? (if s.opensBlock then depth + 1 else depth) rest).map (· + 1)
  | none :: rest => (blockLength? depth rest).map (· + 1)

/-- A machine after a run, and the error that stopped it, if any. -/
structure Run where
  machine : Machine
  error : Option RuntimeError

/-- Runs the rest of a listing, which starts at `index`, after passing over `skip` statements. -/
def runFrom (m : Machine) (index skip : Nat) : List (Option Statement) → Run
  | [] => ⟨m, none⟩
  | s :: rest =>
    match skip with
    | skip + 1 => m.runFrom (index + 1) skip rest
    | 0 =>
      match m.executeSlot s with
      | .next m => m.runFrom (index + 1) 0 rest
      | .skip m =>
        match blockLength? 0 rest with
        | some n => m.runFrom (index + 1) n rest
        | none => ⟨m, some ⟨index, s, .unbalancedBlock⟩⟩
      | .stop m fault => ⟨m, some ⟨index, s, fault⟩⟩

/-- Runs a listing that may have gaps. -/
def runSlots (m : Machine) (slots : List (Option Statement)) : Run :=
  m.runFrom 0 0 slots

def run (m : Machine) (listing : List Statement) : Run :=
  m.runSlots (listing.map some)

/-! ## Looking at a machine -/

def scopeNames (m : Machine) : List Text :=
  m.scopes.keys

/-- The value of a name in any scope. -/
def lookup? (m : Machine) (scope name : Text) : Option Value :=
  match m.scopes[scope]? with
  | some s => s[name]?.bind m.store.read?
  | none => none

/-- The names bound in a scope, sorted, if the scope was ever entered. -/
def names? (m : Machine) (scope : Text) : Option (List Text) :=
  m.scopes[scope]?.map Scope.names

/-- The variables of a scope, sorted by name. -/
def bindings (m : Machine) (scope : Text) : List (Text × Value) :=
  ((m.names? scope).getD []).filterMap fun name => (m.lookup? scope name).map (name, ·)

/-- The variables of all scopes, a line for each. -/
def dump (m : Machine) : Text :=
  .concat (m.scopeNames.flatMap fun scope =>
    (m.bindings scope).map fun (name, v) => .concat [scope, ".", name, " = ", v.render, "\n"])

end Machine

end Scriptlet
