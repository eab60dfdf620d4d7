/-!
# Stacks

A stack is a list with its top in front.
-/

namespace Scriptlet

abbrev Stack (α : Type) := List α

namespace Stack

variable {α : Type}

def push (s : Stack α) (a : α) : Stack α :=
  a :: s

def top? (s : Stack α) : Option α :=
  s.head?

/-- The top and the stack below it. -/
def pop? : Stack α → Option (α × Stack α)
  | [] => none
  | a :: rest => some (a, rest)

end Stack

end Scriptlet
