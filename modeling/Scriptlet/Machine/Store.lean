import Std.Data.TreeMap
import Scriptlet.Machine.Value

/-!
# Variables

A variable is a place in a store, and a scope says which place a name stands for.  Declaring a name
always takes a new place.  So whoever holds the place of a variable keeps that variable, even after
its name was declared again and stands for another one.
-/

namespace Scriptlet

/-- A place in a store. -/
structure Location where
  index : Nat
deriving DecidableEq, Repr

/-- The values of all variables that were ever declared, in the order of their declaration. -/
structure Store where
  cells : Array Value := #[]
deriving DecidableEq, Repr

namespace Store

def empty : Store := {}

/-- The place that the next variable takes. -/
def next (s : Store) : Location :=
  ⟨s.cells.size⟩

/-- Puts a value into the next place. -/
def add (s : Store) (v : Value) : Store :=
  ⟨s.cells.push v⟩

def read? (s : Store) (l : Location) : Option Value :=
  s.cells[l.index]?

def write (s : Store) (l : Location) (v : Value) : Store :=
  ⟨s.cells.setIfInBounds l.index v⟩

end Store

/-- The places that names stand for. -/
abbrev Scope := Std.TreeMap Text Location

namespace Scope

/-- The names bound in a scope, sorted. -/
def names (s : Scope) : List Text :=
  s.keys

/-- Binds a name to a new variable with the given value. -/
def declare (scope : Scope) (store : Store) (name : Text) (v : Value) : Scope × Store :=
  (scope.insert name store.next, store.add v)

end Scope

end Scriptlet
