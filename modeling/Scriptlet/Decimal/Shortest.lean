import Scriptlet.Decimal.Binary

/-!
# Shortest digits

Among the decimals that read back as a given floating-point number some have the fewest digits.
`Decimal.shortest` finds them by trying one digit, then two, and so on: on the grid of decimals
with that many digits only the two neighbours of the number can be nearest to it, and the first
grid on which a neighbour reads back wins.  If both do, the nearer one is taken, and of two equally
near ones the one whose last digit is even.
-/

namespace Scriptlet

/-- The decimal `d₀.d₁d₂… · 10 ^ exponent`. -/
structure Decimal where
  digits : List Nat
  exponent : Int
deriving DecidableEq, Repr

namespace Decimal

/-- The decimal digits of a number, most significant first, none for zero. -/
def digitsOf (n : Nat) : List Nat :=
  if n = 0 then [] else digitsOf (n / 10) ++ [n % 10]
termination_by n

/-- The decimal `c · 10 ^ k` without zeros at its end. -/
def ofScaled (c : Nat) (k : Int) : Decimal :=
  let all := digitsOf c
  ⟨(all.reverse.dropWhile (· = 0)).reverse, k + all.length - 1⟩

/-- The greatest `x` with `10 ^ x ≤ num / den`. -/
def floorLog (num den : Nat) : Int :=
  if den ≤ num then ((digitsOf (num / den)).length : Int) - 1
  else -((digitsOf ((den + num - 1) / num - 1)).length : Int)

/-- The reals that read back as one number, all multiplied by `den`.  The ends belong to it if
`closed`. -/
structure Interval where
  low : Nat
  value : Nat
  high : Nat
  den : Nat
  closed : Bool
deriving DecidableEq, Repr

/-- The interval of a number: half way to its two neighbours.  Below a power of two the numbers lie
twice as close. -/
def Interval.ofBinary (b : Binary) : Interval :=
  let up := Nat.pow 2 b.q.toNat
  let below := if b.m = Binary.hidden && -1074 < b.q then 1 else 2
  let down := Nat.pow 2 (-b.q).toNat
  ⟨(4 * b.m - below) * up, 4 * b.m * up, (4 * b.m + 2) * up, 4 * down, b.m % 2 = 0⟩

/-- The interval in units of `10 ^ k`. -/
def Interval.inUnits (i : Interval) (k : Int) : Interval :=
  let down := Nat.pow 10 (-k).toNat
  ⟨i.low * down, i.value * down, i.high * down, i.den * Nat.pow 10 k.toNat, i.closed⟩

def Interval.contains (i : Interval) (n : Nat) : Bool :=
  if i.closed then i.low ≤ n * i.den && n * i.den ≤ i.high
  else i.low < n * i.den && n * i.den < i.high

/-- The whole number in the interval that is nearest to its value, if one of the two next to the
value is in it. -/
def Interval.nearest? (i : Interval) : Option Nat :=
  let floor := i.value / i.den
  match i.contains floor, i.contains (floor + 1) with
  | true, true => some (Binary.roundDiv i.value i.den)
  | true, false => some floor
  | false, true => some (floor + 1)
  | false, false => none

/-- The decimal with `count` digits that reads back as the interval's number, if there is one. -/
def withDigits? (i : Interval) (count : Nat) : Option Decimal :=
  let k := floorLog i.value i.den - count + 1
  (i.inUnits k).nearest?.map (ofScaled · k)

/-- The shortest decimal that reads back as a positive number.  Seventeen digits always suffice. -/
def shortest (b : Binary) : Decimal :=
  let i := Interval.ofBinary b
  ((List.range 17).findSome? fun n => withDigits? i (n + 1)).getD ⟨[], 0⟩

end Decimal

end Scriptlet
