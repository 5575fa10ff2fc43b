import MemoryLimit.Instances
import MemoryLimit.Rounding

/-!
# Binary floating point numbers

The numbers of the 64-bit binary interchange format, as a sign, an integer below `2 ^ 53` and a power
of two. All arithmetic is exact arithmetic on naturals followed by one rounding, so nothing here
depends on the machine.

## Main definitions

* `Binary64` — a number of the format, an infinity, or no number.
* `Binary64.ofRatio` — the number nearest to a quotient of naturals.
* `Binary64.ofDecimal` — the number nearest to a coefficient times a power of ten.
* `Binary64.add`, `Binary64.sub`, `Binary64.mul`, `Binary64.lt`, `Binary64.scale`, `Binary64.truncate`,
  `Binary64.roundPlaces` — arithmetic.
-/
namespace MemoryLimit

open Instances

/-- A 64-bit binary floating point number. A finite one is `± mantissa * 2 ^ exponent`, with
`mantissa < 2 ^ 53` and `-1074 ≤ exponent`, and the exponent is the least for which the mantissa is
an integer below `2 ^ 53` and at least `2 ^ 52` (or the exponent is `-1074`). -/
inductive Binary64 where
  | finite (negative : Bool) (mantissa : Nat) (exponent : Int)
  | infinity (negative : Bool)
  | nan
deriving DecidableEq, Repr, Inhabited

namespace Binary64

/-- The exponent of the smallest numbers. -/
def minExponent : Int := -1074

/-- The exponent of the greatest numbers. -/
def maxExponent : Int := 971

/-- The zero of a sign. -/
def zero (negative : Bool) : Binary64 :=
  .finite negative 0 minExponent

/-- The numerator and the denominator of `n / d` in units of `2 ^ e`. -/
def inUnits (n d : Nat) (e : Int) : Nat × Nat :=
  (n * 2 ^ (-e).toNat, d * 2 ^ e.toNat)

/-- The exponent of the last place of the number nearest to `n / d`, before it is rounded. -/
def placeOf (n d : Nat) : Int :=
  let e : Int := (n.log2 : Int) - (d.log2 : Int) - 53
  let (num, den) := inUnits n d e
  max minExponent (if den * 2 ^ (53 : Nat) ≤ num then e + 1 else e)

/-- The number nearest to `n / d`, from halfway the one with the even mantissa. Beyond the greatest
number it is an infinity. -/
def ofRatio (negative : Bool) (n d : Nat) : Binary64 :=
  if n = 0 then zero negative
  else
    let e := placeOf n d
    let (num, den) := inUnits n d e
    let q := roundHalfEven num den
    let (mantissa, exponent) := if q = 2 ^ (53 : Nat) then (2 ^ (52 : Nat), e + 1) else (q, e)
    if maxExponent < exponent then .infinity negative else .finite negative mantissa exponent

/-- The number of decimal digits of a natural. -/
private def decimalLength (n : Nat) : Nat :=
  (Nat.toDigits 10 n).length

/-- The number nearest to `± coefficient * 10 ^ exponent`. Values far beyond the range of the format
are decided by their magnitude alone. -/
def ofDecimal (negative : Bool) (coefficient : Nat) (exponent : Int) : Binary64 :=
  if coefficient = 0 then zero negative
  else
    let magnitude : Int := exponent + decimalLength coefficient
    if 310 < magnitude then .infinity negative
    else if magnitude < -330 then zero negative
    else ofRatio negative (coefficient * 10 ^ exponent.toNat) (10 ^ (-exponent).toNat)

/-- The number nearest to an integer. -/
def ofInt (i : Int) : Binary64 :=
  ofRatio (i < 0) i.natAbs 1

/-- Whether the number is neither infinite nor missing. -/
def isFinite : Binary64 → Bool
  | finite .. => true
  | _ => false

/-- The number with the other sign. -/
def neg : Binary64 → Binary64
  | finite negative m e => .finite (!negative) m e
  | infinity negative => .infinity (!negative)
  | nan => .nan

/-- A finite number as an integer in units of `2 ^ e`, for an `e` not above its exponent. -/
private def toUnits (negative : Bool) (m : Nat) (exponent e : Int) : Int :=
  let magnitude : Int := (m * 2 ^ (exponent - e).toNat : Nat)
  if negative then -magnitude else magnitude

/-- The sum, rounded once. Zeros of different signs and opposite numbers have the sum `0`. -/
def add : Binary64 → Binary64 → Binary64
  | finite s m e, finite t n f =>
    let unit := min e f
    let sum := toUnits s m e unit + toUnits t n f unit
    if sum = 0 then zero (s && t)
    else ofRatio (sum < 0) (sum.natAbs * 2 ^ unit.toNat) (2 ^ (-unit).toNat)
  | infinity s, infinity t => if s = t then .infinity s else .nan
  | infinity s, finite .. => .infinity s
  | finite .., infinity t => .infinity t
  | _, _ => .nan

/-- The difference, rounded once. -/
def sub (x y : Binary64) : Binary64 :=
  x.add y.neg

/-- Whether the first number is less than the second; nothing is less or greater than no number. -/
def lt : Binary64 → Binary64 → Bool
  | finite s m e, finite t n f =>
    let unit := min e f
    toUnits s m e unit < toUnits t n f unit
  | infinity s, infinity t => s && !t
  | infinity s, finite .. => s
  | finite .., infinity t => !t
  | _, _ => false

/-- The number times `2 ^ k`, rounded once. -/
def scale (x : Binary64) (k : Nat) : Binary64 :=
  match x with
  | finite s m e => ofRatio s (m * 2 ^ k * 2 ^ e.toNat) (2 ^ (-e).toNat)
  | x => x

/-- The product, rounded once. -/
def mul : Binary64 → Binary64 → Binary64
  | finite s m e, finite t n f =>
    ofRatio (s != t) (m * n * 2 ^ (e + f).toNat) (2 ^ (-(e + f)).toNat)
  | infinity s, infinity t => .infinity (s != t)
  | infinity s, finite t n _ => if n = 0 then .nan else .infinity (s != t)
  | finite s m _, infinity t => if m = 0 then .nan else .infinity (s != t)
  | _, _ => .nan

/-- The integer part of a finite number. -/
def truncate? : Binary64 → Option Int
  | finite s m e =>
    let magnitude : Int := (m * 2 ^ e.toNat / 2 ^ (-e).toNat : Nat)
    some (if s then -magnitude else magnitude)
  | _ => none

/-- Whether the number is a finite integer. -/
def isIntegral : Binary64 → Bool
  | finite _ m e => m * 2 ^ e.toNat % 2 ^ (-e).toNat == 0
  | _ => false

/-- The number nearest to the value rounded to so many decimal places, both times from halfway to
even. -/
def roundPlaces (places : Nat) : Binary64 → Binary64
  | finite s m e =>
    ofRatio s (roundHalfEven (m * 2 ^ e.toNat * 10 ^ places) (2 ^ (-e).toNat)) (10 ^ places)
  | x => x

/-- The greater of the number and zero; no number and a negative zero are kept. -/
def orZero (x : Binary64) : Binary64 :=
  if (x.lt (zero false)) then zero false else x

end Binary64

end MemoryLimit
