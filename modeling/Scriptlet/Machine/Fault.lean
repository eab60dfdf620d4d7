import Scriptlet.Statement
import Scriptlet.Text.Quoted

/-!
# Faults

A statement that cannot be executed stops the machine with a `Fault`, the cause.  A `RuntimeError`
adds which statement it was.
-/

namespace Scriptlet

inductive Fault where
  | undefinedVariable (name : Text)
  | divisionByZero
  /-- An operator that means nothing for a type, or nothing at all. -/
  | unsupportedOperator (op : Text) (type : Option Text)
  | badLiteral (literal type : Text)
  | unknownType (name : Text)
  | cannotUse (type as : Text)
  | cannotCompare (left right : Text)
  /-- No variable was loaded to receive a value. -/
  | noTarget
  | emptyCondition
  /-- The block to be passed over is not closed. -/
  | unbalancedBlock
  /-- There is no statement where one should be. -/
  | missingStatement
deriving DecidableEq, Repr

def Fault.message : Fault → Text
  | undefinedVariable name => "undefined variable: " ++ name
  | divisionByZero => "division by zero"
  | unsupportedOperator op none => "unsupported operator " ++ op.quoted
  | unsupportedOperator op (some type) => .concat ["unsupported operator ", op.quoted, " for ", type]
  | badLiteral literal type => .concat ["bad literal ", literal.quoted, " for ", type]
  | unknownType name => "unknown type " ++ name.quoted
  | cannotUse type as => .concat ["type mismatch: cannot use ", type, " as ", as]
  | cannotCompare left right => .concat ["type mismatch: cannot compare ", left, " with ", right]
  | noTarget => "no target loaded"
  | emptyCondition => "condition stack is empty"
  | unbalancedBlock => "unbalanced block"
  | missingStatement => "unknown statement <nil>"

/-- The statement that a run stopped at, and why. -/
structure RuntimeError where
  index : Nat
  statement : Option Statement
  fault : Fault
deriving DecidableEq, Repr

def RuntimeError.message (e : RuntimeError) : Text :=
  let shown : Text :=
    match e.statement with
    | some s => s.render
    | none => "%!s(<nil>)"
  .concat ["statement ", .ofNat e.index, " (", shown, "): ", e.fault.message]

end Scriptlet
