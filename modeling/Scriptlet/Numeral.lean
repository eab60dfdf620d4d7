import Scriptlet.Text.Basic

/-!
# Decimal integers

An integer is written as an optional sign and at least one decimal digit, and has to fit in 64
bits with sign.  Only ASCII digits count here, whatever other digits a script may hold.
-/

namespace Scriptlet.Numeral

/-- The value of an ASCII digit. -/
def digit? (b : UInt8) : Option Nat :=
  if 48 ≤ b.toNat && b.toNat ≤ 57 then some (b.toNat - 48) else none

/-- The number that a list of digits writes, most significant first. -/
def ofDigits (base : Nat) (digits : List Nat) : Nat :=
  digits.foldl (fun n d => base * n + d) 0

/-- Reads one or more digits and nothing else. -/
def readNat? (bytes : List UInt8) : Option Nat :=
  match bytes with
  | [] => none
  | _ => (bytes.mapM digit?).map (ofDigits 10)

/-- Splits off a sign: whether it is a minus, and what follows. -/
def splitSign : List UInt8 → Bool × List UInt8
  | [] => (false, [])
  | b :: rest =>
    if b = 43 then (false, rest)
    else if b = 45 then (true, rest)
    else (false, b :: rest)

/-- Reads an integer of any size. -/
def readInt? (t : Text) : Option Int :=
  let (negative, digits) := splitSign t.bytes
  (readNat? digits).map fun n => if negative then -(n : Int) else n

/-- Reads an integer that fits in 64 bits. -/
def readInt64? (t : Text) : Option Int64 :=
  match readInt? t with
  | none => none
  | some n => if Int64.minValue.toInt ≤ n && n ≤ Int64.maxValue.toInt then some (.ofInt n) else none

end Scriptlet.Numeral
