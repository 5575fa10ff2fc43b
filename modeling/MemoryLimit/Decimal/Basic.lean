import MemoryLimit.Instances
import MemoryLimit.Text.Digit

/-!
# Decimal numbers

A decimal number keeps how it was written: `2.50` and `2.5` have the same value and different
scales, and both are kept. Besides the finite numbers there are the two infinities, and numbers that
are no number, with a payload that is carried along.

## Main definitions

* `Number` — a finite decimal number: sign, coefficient and exponent.
* `Decimal` — a number, an infinity, or no number.
* `Number.compare` — the order of the values; it never forms a power of ten beyond the digits given.
-/
namespace MemoryLimit

open Instances

/-- A finite decimal number, `± coefficient * 10 ^ exponent`. -/
structure Number where
  negative : Bool
  coefficient : Nat
  exponent : Int
deriving DecidableEq, Repr, Inhabited

/-- A finite decimal number, an infinity, or no number. A signaling one raises a signal in every
operation; the others are carried through. -/
inductive Decimal where
  | finite (number : Number)
  | infinity (negative : Bool)
  | nan (negative signaling : Bool) (payload : Nat)
deriving DecidableEq, Repr, Inhabited

namespace Number

/-- An integer, with exponent zero. -/
def ofInt (i : Int) : Number :=
  ⟨i < 0, i.natAbs, 0⟩

instance (n : Nat) : OfNat Number n := ⟨ofInt n⟩

/-- The coefficient with its sign. -/
def signedCoefficient (x : Number) : Int :=
  if x.negative then -(x.coefficient : Int) else x.coefficient

/-- The place of the first digit: the exponent of the number in scientific notation. -/
def adjusted (x : Number) : Int :=
  x.exponent + Text.digitCount x.coefficient - 1

/-- The number with the other sign. -/
def neg (x : Number) : Number :=
  { x with negative := !x.negative }

/-- The order of the magnitudes of two numbers that are not zero. The places of the first digits
decide; if they agree, the coefficients do, brought to the smaller of the two exponents. -/
def compareMagnitude (x y : Number) : Ordering :=
  match compare x.adjusted y.adjusted with
  | .eq =>
    let unit := min x.exponent y.exponent
    compare (x.coefficient * 10 ^ (x.exponent - unit).toNat)
      (y.coefficient * 10 ^ (y.exponent - unit).toNat)
  | order => order

/-- The order of the values of two numbers. -/
def compare (x y : Number) : Ordering :=
  if x.coefficient = 0 then
    if y.coefficient = 0 then .eq else if y.negative then .gt else .lt
  else if y.coefficient = 0 then
    if x.negative then .lt else .gt
  else
    match x.negative, y.negative with
    | true, false => .lt
    | false, true => .gt
    | false, false => compareMagnitude x y
    | true, true => compareMagnitude y x

instance : LE Number := ⟨fun x y => x.compare y ≠ .gt⟩

instance : LT Number := ⟨fun x y => x.compare y = .lt⟩

instance (x y : Number) : Decidable (x ≤ y) :=
  inferInstanceAs (Decidable (x.compare y ≠ .gt))

instance (x y : Number) : Decidable (x < y) :=
  inferInstanceAs (Decidable (x.compare y = .lt))

/-- Whether two numbers have the same value, whatever their scales. -/
def sameValue (x y : Number) : Bool :=
  x.compare y == .eq

/-- The greatest integer not above the number. -/
def floor (x : Number) : Int :=
  if 0 ≤ x.exponent then x.signedCoefficient * 10 ^ x.exponent.toNat
  else x.signedCoefficient.fdiv (10 ^ (-x.exponent).toNat)

/-- The least integer not below the number. -/
def ceil (x : Number) : Int :=
  -x.neg.floor

end Number

namespace Decimal

/-- An integer as a decimal number. -/
def ofInt (i : Int) : Decimal :=
  .finite (.ofInt i)

/-- Whether the value is a number or an infinity that is not zero. No number counts as one. -/
def isNonzero : Decimal → Bool
  | finite x => x.coefficient ≠ 0
  | _ => true

end Decimal

end MemoryLimit
