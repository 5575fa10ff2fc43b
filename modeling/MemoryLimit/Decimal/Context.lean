import MemoryLimit.Decimal.Basic
import MemoryLimit.Instances
import MemoryLimit.Rounding

/-!
# Decimal arithmetic

A context fixes how many digits a result may have and between which exponents it lies. A result is
the exact value rounded once, half to even, to the digits of the context. Three conditions have no
result: an operation that is not defined, a division by zero, and a result too large.

## Main definitions

* `Signal` — the three conditions.
* `Context` — precision and exponent range.
* `Context.finish` — an exact value brought into the context.
* `Context.add`, `Context.sub`, `Context.mul`, `Context.half`, `Context.div` — arithmetic.
* `Decimal.compare` — the order of two decimal numbers, which no number has no place in.
-/
namespace MemoryLimit

open Instances Text

/-- A condition under which an operation has no result. -/
inductive Signal where
  | invalidOperation
  | divisionByZero
  | overflow
deriving DecidableEq, Repr, Inhabited

/-- How many digits a result may have, and the greatest and least exponent, in scientific notation,
of one that is rounded to that many digits. -/
structure Context where
  precision : Nat
  maxExponent : Int := 999999
  minExponent : Int := -999999
deriving DecidableEq, Repr

namespace Context

/-- The context of calculations that ask for no particular precision. -/
def standard : Context := { precision := 28 }

/-- The exponent of the last digit of the smallest numbers. -/
def minUnit (ctx : Context) : Int :=
  ctx.minExponent - ctx.precision + 1

/-- The exponent that the last digit of a value gets when it has as many digits as the context
allows; for small values, the exponent of the smallest numbers. -/
def unitFor (ctx : Context) (coefficient : Nat) (exponent : Int) : Int :=
  max (exponent + digitCount coefficient - ctx.precision) ctx.minUnit

/-- A coefficient in units of `10 ^ unit`, rounded. A value below a tenth of the unit is zero. -/
def toUnit (coefficient : Nat) (exponent unit : Int) : Nat :=
  let dropped := (unit - exponent).toNat
  if digitCount coefficient < dropped then 0 else roundHalfEven coefficient (10 ^ dropped)

/-- A coefficient that rounding carried to one digit more than the context allows ends in zero; that
zero is dropped. -/
def dropCarry (ctx : Context) (coefficient : Nat) (unit : Int) : Nat × Int :=
  if ctx.precision < digitCount coefficient then (coefficient / 10, unit + 1)
  else (coefficient, unit)

/-- Brings an exact value into the context: rounds it if it has too many digits or is too small, and
refuses it if it is too large. -/
def finish (ctx : Context) (x : Number) : Except Signal Number :=
  if x.coefficient = 0 then
    .ok { x with exponent := min (max x.exponent ctx.minUnit) ctx.maxExponent }
  else if ctx.maxExponent < x.adjusted then .error .overflow
  else
    let unit := ctx.unitFor x.coefficient x.exponent
    if unit ≤ x.exponent then .ok x
    else
      let (coefficient, unit) := ctx.dropCarry (toUnit x.coefficient x.exponent unit) unit
      let rounded : Number := ⟨x.negative, coefficient, unit⟩
      if coefficient ≠ 0 && ctx.maxExponent < rounded.adjusted then .error .overflow
      else .ok rounded

/-- Writes a number with a smaller exponent. -/
def refine (x : Number) (exponent : Int) : Number :=
  { x with
    coefficient := x.coefficient * 10 ^ (x.exponent - exponent).toNat
    exponent := exponent }

/-- The exact sum of two numbers of the same exponent. Opposite numbers add up to a zero without
sign, and so do zeros of different signs. -/
def addAligned (x y : Number) : Number :=
  let sum := x.signedCoefficient + y.signedCoefficient
  ⟨if sum = 0 then x.negative && y.negative else sum < 0, sum.natAbs, x.exponent⟩

/-- The exponent far below the last digit of a sum with a leading operand `x`: anything that is not
zero and lies below it changes the rounded sum in the same way. -/
def stickyUnit (ctx : Context) (x : Number) : Int :=
  x.exponent + min (-1) ((digitCount x.coefficient : Int) - ctx.precision - 2)

/-- A number to be added to `x`, of which only the sign matters if it is very small. -/
def condense (ctx : Context) (x y : Number) : Number :=
  if y.adjusted < ctx.stickyUnit x then ⟨y.negative, 1, ctx.stickyUnit x⟩ else y

/-- The sum of two numbers that are not zero, the first with the greater exponent. -/
def addOrdered (ctx : Context) (x y : Number) : Except Signal Number :=
  let small := ctx.condense x y
  ctx.finish (addAligned (refine x small.exponent) small)

/-- The sum of zero and a number: the number, written with the exponent of the zero as far as the
digits of the context allow. -/
def addZero (ctx : Context) (zeroExponent : Int) (y : Number) : Except Signal Number :=
  let unit := max (min zeroExponent y.exponent) (y.exponent - ctx.precision - 1)
  ctx.finish (refine y unit)

/-- The sum of two numbers, rounded. -/
def add (ctx : Context) (x y : Number) : Except Signal Number :=
  if x.coefficient = 0 then
    if y.coefficient = 0 then
      ctx.finish ⟨x.negative && y.negative, 0, min x.exponent y.exponent⟩
    else ctx.addZero x.exponent y
  else if y.coefficient = 0 then ctx.addZero y.exponent x
  else if y.exponent ≤ x.exponent then ctx.addOrdered x y
  else ctx.addOrdered y x

/-- The difference of two numbers, rounded. -/
def sub (ctx : Context) (x y : Number) : Except Signal Number :=
  ctx.add x y.neg

/-- The product of two numbers, rounded. -/
def mul (ctx : Context) (x y : Number) : Except Signal Number :=
  ctx.finish
    ⟨x.negative != y.negative, x.coefficient * y.coefficient, x.exponent + y.exponent⟩

/-- The magnitude of a number, rounded. -/
def abs (ctx : Context) (x : Number) : Except Signal Number :=
  ctx.finish { x with negative := false }

/-- An exact quotient without the trailing zeros that would bring its exponent below `ideal`. -/
def dropZeros : Nat → Nat → Int → Int → Nat × Int
  | 0, coefficient, exponent, _ => (coefficient, exponent)
  | fuel + 1, coefficient, exponent, ideal =>
    if exponent < ideal && coefficient % 10 = 0 then
      dropZeros fuel (coefficient / 10) (exponent + 1) ideal
    else (coefficient, exponent)

/-- A quotient that was cut off. If something was left, a last digit zero or five becomes one or six,
so that the value no longer looks like one halfway between two others. -/
def sticky (quotient remainder : Nat) : Nat :=
  if remainder ≠ 0 && quotient % 5 = 0 then quotient + 1 else quotient

/-- The quotient of two numbers that are not zero, rounded. It is taken with two or three digits more
than the context allows. -/
def divNonzero (ctx : Context) (x y : Number) : Except Signal Number :=
  let shift : Int := (digitCount y.coefficient : Int) - digitCount x.coefficient + ctx.precision + 1
  let num := x.coefficient * 10 ^ shift.toNat
  let den := y.coefficient * 10 ^ (-shift).toNat
  let ideal := x.exponent - y.exponent
  let (coefficient, exponent) :=
    if num % den = 0 then dropZeros shift.toNat (num / den) (ideal - shift) ideal
    else (sticky (num / den) (num % den), ideal - shift)
  ctx.finish ⟨x.negative != y.negative, coefficient, exponent⟩

/-- The quotient of two numbers, rounded. -/
def divNumber (ctx : Context) (x y : Number) : Except Signal Number :=
  if y.coefficient = 0 then
    .error (if x.coefficient = 0 then .invalidOperation else .divisionByZero)
  else if x.coefficient = 0 then
    ctx.finish ⟨x.negative != y.negative, 0, x.exponent - y.exponent⟩
  else ctx.divNonzero x y

/-- Half of a number, rounded. -/
def half (ctx : Context) (x : Number) : Except Signal Number :=
  ctx.divNumber x 2

end Context

namespace Decimal

/-- The first operand that is no number, if any; a signaling one raises a signal. -/
private def carried? (x y : Decimal) : Option (Except Signal Decimal) :=
  match x, y with
  | nan _ true _, _ => some (.error .invalidOperation)
  | _, nan _ true _ => some (.error .invalidOperation)
  | nan s false p, _ => some (.ok (nan s false p))
  | _, nan s false p => some (.ok (nan s false p))
  | _, _ => none

/-- Whether the sign is a minus. -/
def isNegative : Decimal → Bool
  | finite x => x.negative
  | infinity s => s
  | nan s _ _ => s

/-- The quotient of two decimal numbers, rounded. -/
def div (ctx : Context) (x y : Decimal) : Except Signal Decimal :=
  match carried? x y with
  | some answer => answer
  | none =>
    let negative := x.isNegative != y.isNegative
    match x, y with
    | finite x, finite y => (ctx.divNumber x y).map finite
    | infinity _, infinity _ => .error .invalidOperation
    | infinity _, _ => .ok (infinity negative)
    | _, _ => .ok (finite ⟨negative, 0, ctx.minUnit⟩)

/-- The order of two decimal numbers; an operand that is no number raises a signal. -/
def compare : Decimal → Decimal → Except Signal Ordering
  | nan .., _ => .error .invalidOperation
  | _, nan .. => .error .invalidOperation
  | finite x, finite y => .ok (x.compare y)
  | infinity s, infinity t => .ok (Ord.compare (!s) (!t))
  | infinity s, finite _ => .ok (if s then .lt else .gt)
  | finite _, infinity t => .ok (if t then .gt else .lt)

/-- Whether two decimal numbers have the same value. No number equals nothing, and a signaling one
raises a signal. -/
def sameValue : Decimal → Decimal → Except Signal Bool
  | nan _ true _, _ => .error .invalidOperation
  | _, nan _ true _ => .error .invalidOperation
  | nan .., _ => .ok false
  | _, nan .. => .ok false
  | x, y => (x.compare y).map (· == .eq)

end Decimal

end MemoryLimit
