import Std.Data.TreeMap
import Scriptlet.Statement
import Scriptlet.Token.Basic

/-!
# Keywords

A keyword takes a head, the tokens up to the next opening delimiter, and a body behind it.  What
the head means is the keyword's own business: its `Handler` turns the head into the statements that
stand in front of the body, or says what is wrong with it.

The language itself knows `if`.  Its head is a condition: one operand, or two of them with a
comparison between.
-/

namespace Scriptlet

/-- What is wrong with the head of a keyword. -/
inductive HeadError where
  | missingCondition
  | notOperand (token : Token)
  | notComparison (token : Token)
  /-- A condition of a length that has no meaning. -/
  | conditionLength (count : Nat)
  /-- The handler's own words. -/
  | refused (reason : Text)
deriving DecidableEq, Repr

def HeadError.message : HeadError → Text
  | missingCondition => "missing condition"
  | notOperand t => "expected operand but got " ++ t.render
  | notComparison t => "expected comparison but got " ++ t.render
  | conditionLength n => .concat ["unsupported condition of ", .ofNat n, " tokens"]
  | refused reason => reason

abbrev Handler := List Token → Except HeadError (List Statement)

/-- Handlers by the word that they serve. -/
abbrev Keywords := Std.TreeMap Text Handler

namespace Condition

def comparisons : List Text := ["==", "!=", "<", "<=", ">", ">="]

/-- Accepts a number or a name. -/
def checkOperand (t : Token) : Except HeadError Unit :=
  if t.kind = .number || t.kind = .identifier then .ok () else .error (.notOperand t)

def checkComparison (t : Token) : Except HeadError Unit :=
  if t.kind = .binaryOperator && t.literal ∈ comparisons then .ok () else .error (.notComparison t)

/-- The handler of `if`.  Of several faults the leftmost is named. -/
def head : Handler
  | [] => .error .missingCondition
  | [operand] => do
    checkOperand operand
    return [.test operand.literal, .branch]
  | [left, comparison, right] => do
    checkOperand left
    checkComparison comparison
    checkOperand right
    return [.test left.literal, .test right.literal, .compare comparison.literal, .branch]
  | tokens => .error (.conditionLength tokens.length)

end Condition

def Keywords.standard : Keywords :=
  (∅ : Keywords).insert "if" Condition.head

/-- The words that have a handler, sorted. -/
def Keywords.words (keywords : Keywords) : List Text :=
  keywords.keys

end Scriptlet
