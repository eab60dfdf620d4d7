/-!
# Floating-point numbers as whole numbers

A finite floating-point number of 64 bits is `m · 2 ^ q` up to sign, with `m < 2 ^ 53` and
`-1074 ≤ q`.  Text is read and written through that form, in exact arithmetic.

* `Binary.ofBits`, `Binary.toBits` — from and to the bits without the sign.
* `Binary.nearestBits` — the number nearest to a fraction; of two equally near ones the one with
  even `m`.
-/

namespace Scriptlet

/-- The number `m · 2 ^ q`. -/
structure Binary where
  m : Nat
  q : Int
deriving DecidableEq, Repr

namespace Binary

/-- The bits of the lowest number with a full mantissa. -/
def hidden : Nat := Nat.pow 2 52

/-- The bits, without the sign, of infinity; those of a finite number are less. -/
def infinityBits : Nat := 2047 * hidden

/-- The bit of the sign. -/
def signBit : Nat := 2048 * hidden

/-- The number with the given bits, the sign left out. -/
def ofBits (bits : Nat) : Binary :=
  if bits / hidden = 0 then ⟨bits % hidden, -1074⟩
  else ⟨bits % hidden + hidden, (bits / hidden : Nat) - 1075⟩

/-- The bits of a number in lowest position.  A full mantissa carries into the exponent, which is
as it should be. -/
def toBits (b : Binary) : Nat :=
  (b.q + 1074).toNat * hidden + b.m

/-- A quotient rounded to the nearest whole number, a half to the even one. -/
def roundDiv (num den : Nat) : Nat :=
  let floor := num / den
  let twice := 2 * (num % den)
  if twice < den || (twice = den && floor % 2 = 0) then floor else floor + 1

/-- The fraction `num / den` divided by `2 ^ q`. -/
def scaled (num den : Nat) (q : Int) : Nat × Nat :=
  (num * Nat.pow 2 (-q).toNat, den * Nat.pow 2 q.toNat)

/-- The exponent for which `num / den` has a mantissa of 53 bits, or the least exponent there is
if that is greater. -/
def exponentOf (num den : Nat) : Int :=
  let q : Int := (num.log2 : Int) - den.log2 - 53
  let (n, d) := scaled num den q
  max (if n / d < 2 * hidden then q else q + 1) (-1074)

/-- The bits of the number nearest to `num / den`.  They are those of infinity or more if the
fraction is out of range. -/
def nearestBits (num den : Nat) : Nat :=
  if num = 0 then 0
  else
    let q := exponentOf num den
    let (n, d) := scaled num den q
    toBits ⟨roundDiv n d, q⟩

end Binary

end Scriptlet
