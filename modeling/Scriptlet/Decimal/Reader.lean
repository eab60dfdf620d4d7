import Scriptlet.Decimal.Binary
import Scriptlet.Numeral

/-!
# Reading floating-point numbers

A number is an optional sign and one of

* digits with at most one point among them, at least one digit in all, and an optional exponent
  `e` of ten with a sign of its own,
* `0x` and the same with hexadecimal digits and a mandatory exponent `p` of two,
* `inf` or `infinity`, or `nan` if there is no sign.

Letters may be of either case.  An underscore may stand between two digits, and between `0x` and
a digit.  The number read is the nearest one there is; a number that would be infinite for being
too large is refused, one that would be zero for being too small is zero.

Decimal numbers of great length are the exception.  If the first nineteen digits leave open which
number is nearest, no more than 800 digits of the whole part count: those that follow are left out,
and with them the powers of ten that they stand for.

* `Base.written?` — the digits and the exponent of a number.
* `Written.bits` — the number nearest to what is written.
* `Decimal.read?` — the number that a text writes.
-/

namespace Scriptlet.Decimal

def lower (b : UInt8) : UInt8 :=
  if 65 ≤ b.toNat && b.toNat ≤ 90 then b + 32 else b

/-- The letters of a base, and the rules that go with them. -/
structure Base where
  /-- The number of digits. -/
  size : Nat
  /-- The letter, in lower case, that starts the exponent. -/
  exponentMark : UInt8
  /-- How many powers of the exponent's base one digit makes. -/
  digitPowers : Nat
  /-- The base of the exponent. -/
  exponentBase : Nat
  exponentRequired : Bool
  /-- How many digits of a whole part count at most, where there is a limit. -/
  wholeLimit : Option Nat

def decimalBase : Base := ⟨10, 101, 1, 10, false, some 800⟩

def hexadecimalBase : Base := ⟨16, 112, 4, 2, true, none⟩

/-- The value of a digit of the base. -/
def Base.digit? (base : Base) (b : UInt8) : Option Nat :=
  match Numeral.digit? b with
  | some d => some d
  | none =>
    if base.size = 16 && 97 ≤ (lower b).toNat && (lower b).toNat ≤ 102 then
      some ((lower b).toNat - 87)
    else none

def Base.isDigit (base : Base) (b : UInt8) : Bool :=
  (base.digit? b).isSome

/-- Whether every underscore stands between two digits.  `afterDigit` tells whether what comes
before the bytes counts as a digit. -/
def Base.separatorsFit (base : Base) (afterDigit : Bool) : List UInt8 → Bool
  | [] => true
  | b :: rest =>
    if b = 95 then afterDigit && (rest.head?.map base.isDigit).getD false
      && base.separatorsFit false rest
    else base.separatorsFit (base.isDigit b) rest

/-- The exponent that digits write.  It stops growing beyond ten thousand, which is out of range
either way. -/
def exponentOfDigits (digits : List Nat) : Nat :=
  digits.foldl (fun e d => if e < 10000 then 10 * e + d else e) 0

/-- Reads what follows the digits: an exponent, or nothing if none is required. -/
def Base.exponent? (base : Base) : List UInt8 → Option Int
  | [] => if base.exponentRequired then none else some 0
  | mark :: rest =>
    let (negative, digits) := Numeral.splitSign rest
    if lower mark = base.exponentMark && !digits.isEmpty then
      (digits.mapM Numeral.digit?).map fun ds =>
        if negative then -(exponentOfDigits ds : Int) else exponentOfDigits ds
    else none

/-- Splits the digits behind a point from what follows them; without a point there are none. -/
def Base.fraction (base : Base) : List UInt8 → List UInt8 × List UInt8
  | [] => ([], [])
  | b :: rest => if b = 46 then rest.span base.isDigit else ([], b :: rest)

/-- What is written of a number: the digits before and behind the point, and the exponent. -/
structure Written where
  whole : List Nat
  fraction : List Nat
  exponent : Int
deriving DecidableEq, Repr

/-- Reads a number without sign and underscores. -/
def Base.written? (base : Base) (bytes : List UInt8) : Option Written :=
  let (whole, rest) := bytes.span base.isDigit
  let (fraction, rest) := base.fraction rest
  if whole.isEmpty && fraction.isEmpty then none
  else
    (base.exponent? rest).map
      (⟨whole.filterMap base.digit?, fraction.filterMap base.digit?, ·⟩)

/-- The bits of the number nearest to `significand · base ^ exponent`, or those of infinity. -/
def Base.bits (base : Base) (significand : Nat) (exponent : Int) : Nat :=
  min Binary.infinityBits
    (Binary.nearestBits (significand * base.exponentBase.pow exponent.toNat)
      (base.exponentBase.pow (-exponent).toNat))

/-- How many digits are looked at first. -/
def leadingCount : Nat := 19

namespace Written

def digits (w : Written) : List Nat :=
  w.whole ++ w.fraction

/-- The power that the last digit counts. -/
def lastPower (base : Base) (w : Written) : Int :=
  w.exponent - (base.digitPowers * w.fraction.length : Nat)

/-- The digits from the first on that is not zero. -/
def significant (digits : List Nat) : List Nat :=
  digits.dropWhile (· = 0)

/-- Whether the leading digits decide which number is nearest: nothing follows them, or it makes no
difference whether the last of them is one greater. -/
def isDecided (base : Base) (w : Written) : Bool :=
  let digits := significant w.digits
  let leading := Numeral.ofDigits base.size (digits.take leadingCount)
  let rest := digits.drop leadingCount
  let power := w.lastPower base + (base.digitPowers * rest.length : Nat)
  rest.all (· = 0) || base.bits leading power = base.bits (leading + 1) power

/-- How many digits of the whole part are left out. -/
def leftOut (base : Base) (w : Written) : Nat :=
  match base.wholeLimit with
  | none => 0
  | some limit =>
    let extra := (significant w.whole).length - limit
    if extra = 0 || w.isDecided base then 0 else extra

/-- The bits of the number nearest to what is written, or those of infinity. -/
def bits (base : Base) (w : Written) : Nat :=
  base.bits (Numeral.ofDigits base.size w.digits)
    (w.lastPower base - (base.digitPowers * w.leftOut base : Nat))

end Written

/-- Reads a number without sign and underscores and gives its bits, unless they are those of
infinity. -/
def Base.readBits? (base : Base) (bytes : List UInt8) : Option Nat :=
  match base.written? bytes with
  | none => none
  | some w => if w.bits base < Binary.infinityBits then some (w.bits base) else none

/-- Reads digits among which underscores stand in their places. -/
def Base.readSeparated? (base : Base) (afterDigit : Bool) (bytes : List UInt8) : Option Nat :=
  if base.separatorsFit afterDigit bytes then base.readBits? (bytes.filter (· ≠ 95)) else none

/-- Reads a number without sign. -/
def readMagnitude? : List UInt8 → Option Nat
  | zero :: x :: rest =>
    if zero = 48 && lower x = 120 then hexadecimalBase.readSeparated? true rest
    else decimalBase.readSeparated? false (zero :: x :: rest)
  | bytes => decimalBase.readSeparated? false bytes

def isWord (bytes : List UInt8) (word : Text) : Bool :=
  bytes.map lower = word.bytes

/-- The bits of a number, without its sign. -/
def bits? (bytes : List UInt8) : Option Nat :=
  if isWord bytes "inf" || isWord bytes "infinity" then some Binary.infinityBits
  else readMagnitude? bytes

/-- Reads a floating-point number. -/
def read? (t : Text) : Option Float :=
  if isWord t.bytes "nan" then some (0.0 / 0.0)
  else
    let (negative, rest) := Numeral.splitSign t.bytes
    (bits? rest).map fun bits =>
      let f := Float.ofBits bits.toUInt64
      if negative then -f else f

end Scriptlet.Decimal
