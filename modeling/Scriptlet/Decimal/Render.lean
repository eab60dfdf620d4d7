import Scriptlet.Decimal.Shortest
import Scriptlet.Text.Basic

/-!
# Floating-point numbers as text

A number is written with the shortest digits that read back.  It is written out in full if it is
at least `0.0001` and below one million, and else with an exponent of at least two digits and its
sign: `100000`, `1e+06`, `0.0001`, `1e-05`.  Zero keeps its sign, and so does infinity.
-/

namespace Scriptlet.Decimal

/-- The least exponent of ten that is written out in full. -/
def leastPlain : Int := -4

/-- The least exponent of ten above the plain ones that is marked as an exponent again. -/
def leastMarked : Int := 6

def digitText (digits : List Nat) : List Char :=
  digits.map Nat.digitChar

/-- Digits behind a point, or nothing if there are none. -/
def fraction (digits : List Nat) : List Char :=
  if digits.isEmpty then [] else '.' :: digitText digits

/-- A decimal without an exponent. -/
def plain (d : Decimal) : List Char :=
  if d.exponent < 0 then
    '0' :: fraction (List.replicate ((-d.exponent).toNat - 1) 0 ++ d.digits)
  else
    let whole := d.exponent.toNat + 1
    digitText (d.digits.take whole ++ List.replicate (whole - d.digits.length) 0)
      ++ fraction (d.digits.drop whole)

/-- An exponent with its sign and at least two digits. -/
def exponentText (e : Int) : List Char :=
  let digits := digitsOf e.natAbs
  (if e < 0 then '-' else '+') :: digitText (List.replicate (2 - digits.length) 0 ++ digits)

/-- A decimal with one digit before the point and an exponent. -/
def marked (d : Decimal) : List Char :=
  digitText (d.digits.take 1) ++ fraction (d.digits.drop 1) ++ 'e' :: exponentText d.exponent

def toChars (d : Decimal) : List Char :=
  if leastPlain ≤ d.exponent && d.exponent < leastMarked then d.plain else d.marked

/-- The text of the number with the given bits, the sign left out. -/
def magnitude (bits : Nat) : List Char :=
  if bits = 0 then ['0'] else (shortest (Binary.ofBits bits)).toChars

/-- The text of a floating-point number. -/
def render (f : Float) : Text :=
  let bits := f.toBits.toNat
  let negative := Binary.signBit ≤ bits
  let rest := bits % Binary.signBit
  if Binary.infinityBits < rest then "NaN"
  else if rest = Binary.infinityBits then (if negative then "-Inf" else "+Inf")
  else .ofChars ((if negative then ['-'] else []) ++ magnitude rest)

end Scriptlet.Decimal
