import Scriptlet.Decimal.Reader
import Scriptlet.Decimal.Render
import Scriptlet.Machine.Fault

/-!
# Values

The language has three types.  A value names its type and has a field for each of the three: a whole
number of 64 bits that wraps around, a floating-point number and a truth value.  What the value is
stands in the field of its own type.  Nothing in its form keeps the other fields empty, or its type
one of the three.

* `Value.read` — reads a literal as a value of a given type.
* `Value.infer?` — reads a literal that brings its own type.
* `Value.convert` — whole numbers widen to floating-point ones, and nothing else converts.
* `Value.combine`, `Value.compare` — the operators.
-/

namespace Scriptlet

inductive ValueType where
  | int
  | float
  | bool
deriving DecidableEq, Repr

namespace ValueType

def name : ValueType → Text
  | int => "int"
  | float => "float"
  | bool => "bool"

def ofName? (name : Text) : Option ValueType :=
  [int, float, bool].find? (·.name = name)

end ValueType

structure Value where
  /-- The name of the value's type. -/
  type : Text
  whole : Int64 := 0
  real : Float := 0.0
  truth : Bool := false
deriving DecidableEq, Repr

namespace Value

def int (n : Int64) : Value :=
  { type := ValueType.int.name, whole := n }

def float (f : Float) : Value :=
  { type := ValueType.float.name, real := f }

def bool (b : Bool) : Value :=
  { type := ValueType.bool.name, truth := b }

def zero (t : ValueType) : Value :=
  { type := t.name }

/-- The zero of a type given by its name. -/
def zeroOf (type : Text) : Except Fault Value :=
  match ValueType.ofName? type with
  | some t => .ok (zero t)
  | none => .error (.unknownType type)

def render (v : Value) : Text :=
  match ValueType.ofName? v.type with
  | some .int => .ofInt v.whole.toInt
  | some .float => Decimal.render v.real
  | some .bool => if v.truth then "true" else "false"
  | none => "<invalid>"

/-- What counts as true in a condition: every number but zero, and `true`. -/
def isTrue (v : Value) : Bool :=
  match ValueType.ofName? v.type with
  | some .int => v.whole != 0
  | some .float => v.real != 0.0
  | _ => v.truth

/-! ## Literals -/

def readBool? (literal : Text) : Option Bool :=
  if literal = "true" then some true
  else if literal = "false" then some false
  else none

def readAs? (t : ValueType) (literal : Text) : Option Value :=
  match t with
  | .int => (Numeral.readInt64? literal).map int
  | .float => (Decimal.read? literal).map float
  | .bool => (readBool? literal).map bool

/-- Reads a literal as a value of the type with the given name. -/
def read (type literal : Text) : Except Fault Value :=
  match ValueType.ofName? type with
  | none => .error (.unknownType type)
  | some t =>
    match readAs? t literal with
    | some v => .ok v
    | none => .error (.badLiteral literal type)

/-- Reads a literal without a given type: a truth value, a number with a point, or a whole
number. -/
def infer? (literal : Text) : Option Value :=
  match readBool? literal with
  | some b => some (bool b)
  | none => readAs? (if 46 ∈ literal.bytes then .float else .int) literal

/-- The value as one of the type with the given name. -/
def convert (v : Value) (type : Text) : Except Fault Value :=
  if v.type = type then .ok v
  else if v.type = ValueType.int.name ∧ type = ValueType.float.name then
    .ok (float v.whole.toFloat)
  else .error (.cannotUse v.type type)

/-! ## Operators -/

inductive Operator where
  | add
  | sub
  | mul
  | div
  | rem
  | and
  | or
deriving DecidableEq, Repr

def Operator.ofText? (op : Text) : Option Operator :=
  ([("+", add), ("-", sub), ("*", mul), ("/", div), ("%", rem), ("&&", and), ("||", or)] :
    List (Text × Operator)).lookup op

/-- The result of an operator, `none` if it does not apply to the type of the accumulated value.  Of
the operand only the field of that type is read.  Addition and multiplication of truth values are
disjunction and conjunction. -/
def result? (op : Operator) (acc operand : Value) : Option (Except Fault Value) :=
  match ValueType.ofName? acc.type, op with
  | some .int, .add => some (.ok (int (acc.whole + operand.whole)))
  | some .int, .sub => some (.ok (int (acc.whole - operand.whole)))
  | some .int, .mul => some (.ok (int (acc.whole * operand.whole)))
  | some .int, .div =>
    some (if operand.whole = 0 then .error .divisionByZero
      else .ok (int (acc.whole / operand.whole)))
  | some .int, .rem =>
    some (if operand.whole = 0 then .error .divisionByZero
      else .ok (int (acc.whole % operand.whole)))
  | some .float, .add => some (.ok (float (acc.real + operand.real)))
  | some .float, .sub => some (.ok (float (acc.real - operand.real)))
  | some .float, .mul => some (.ok (float (acc.real * operand.real)))
  | some .float, .div =>
    some (if operand.real == 0.0 then .error .divisionByZero
      else .ok (float (acc.real / operand.real)))
  | some .bool, .add => some (.ok (bool (acc.truth || operand.truth)))
  | some .bool, .or => some (.ok (bool (acc.truth || operand.truth)))
  | some .bool, .mul => some (.ok (bool (acc.truth && operand.truth)))
  | some .bool, .and => some (.ok (bool (acc.truth && operand.truth)))
  | _, _ => none

/-- Combines an accumulated value with an operand of the same type. -/
def combine (op : Text) (acc operand : Value) : Except Fault Value :=
  match (Operator.ofText? op).bind (result? · acc operand) with
  | some result => result
  | none => .error (.unsupportedOperator op (some acc.type))

inductive Comparison where
  | eq
  | ne
  | lt
  | le
  | gt
  | ge
deriving DecidableEq, Repr

def Comparison.ofText? (op : Text) : Option Comparison :=
  ([("==", eq), ("!=", ne), ("<", lt), ("<=", le), (">", gt), (">=", ge)] :
    List (Text × Comparison)).lookup op

def Comparison.ofInts (a b : Int64) : Comparison → Bool
  | eq => a = b
  | ne => a ≠ b
  | lt => a < b
  | le => a ≤ b
  | gt => b < a
  | ge => b ≤ a

/-- Every comparison with a value that is not a number is false, except `ne`. -/
def Comparison.ofFloats (a b : Float) : Comparison → Bool
  | eq => a == b
  | ne => a != b
  | lt => a < b
  | le => a ≤ b
  | gt => b < a
  | ge => b ≤ a

/-- Truth values are equal or not, and have no order. -/
def Comparison.ofBools? (a b : Bool) : Comparison → Option Bool
  | eq => some (a == b)
  | ne => some (a != b)
  | _ => none

def toFloat (v : Value) : Float :=
  if v.type = ValueType.int.name then v.whole.toFloat else v.real

/-- The answer of a comparison of numbers, all six of which have a meaning. -/
def compareNumbers (op : Text) (answer : Comparison → Bool) : Except Fault Bool :=
  match Comparison.ofText? op with
  | some c => .ok (answer c)
  | none => .error (.unsupportedOperator op none)

/-- Compares two values: truth values with each other, whole numbers with each other, and other
numbers as floating-point ones. -/
def compare (op : Text) (left right : Value) : Except Fault Bool :=
  if left.type = ValueType.bool.name ∨ right.type = ValueType.bool.name then
    if left.type = right.type then
      match (Comparison.ofText? op).bind (Comparison.ofBools? left.truth right.truth) with
      | some result => .ok result
      | none => .error (.unsupportedOperator op (some ValueType.bool.name))
    else .error (.cannotCompare left.type right.type)
  else if left.type = ValueType.int.name ∧ right.type = ValueType.int.name then
    compareNumbers op (Comparison.ofInts left.whole right.whole)
  else compareNumbers op (Comparison.ofFloats left.toFloat right.toFloat)

end Value

end Scriptlet
