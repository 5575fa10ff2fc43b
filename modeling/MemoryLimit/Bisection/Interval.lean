import MemoryLimit.Decimal.Figure
import MemoryLimit.Failure

/-!
# Intervals

An interval has two finite decimal bounds in order. Its midpoint and its width are rounded to sixty
digits, so that the halving of intervals between whole numbers of bytes is exact for as long as a
search lasts in practice.

## Main definitions

* `Interval` — two bounds in order.
* `Interval.between?`, `Interval.ofFigures` — the interval between two bounds, if they are in order.
* `Interval.midpoint`, `Interval.width` — rounded to sixty digits.
* `Interval.narrow` — the half in which the boundary lies.
-/
namespace MemoryLimit

/-- An interval between two finite decimal numbers. -/
structure Interval where
  low : Number
  high : Number
  ordered : low ≤ high

namespace Interval

/-- The precision of all calculations with intervals. -/
def context : Context := { precision := 60 }

/-- The interval between two bounds. -/
def between? (low high : Number) : Except Failure Interval :=
  if h : low ≤ high then .ok ⟨low, high, h⟩ else .error (.invalid (.reversed low high))

/-- The interval between two decimal numbers. -/
def ofDecimals (low high : Decimal) : Except Failure Interval :=
  match low, high with
  | .finite l, .finite h => between? l h
  | l, h => .error (.invalid (.notFinite l h))

/-- The interval between two figures. -/
def ofFigures (low high : Figure) : Except Failure Interval := do
  let l ← Signal.raise low.toDecimal
  let h ← Signal.raise high.toDecimal
  ofDecimals l h

/-- The sum of the bounds, halved. -/
def midpoint (i : Interval) : Except Signal Number := do
  context.half (← context.add i.low i.high)

/-- The difference of the bounds. -/
def width (i : Interval) : Except Signal Number :=
  context.sub i.high i.low

/-- The half of the interval in which the boundary lies: the lower one if the midpoint succeeded. -/
def narrow (i : Interval) (succeeded : Bool) : Except Failure Interval := do
  let middle ← Signal.raise i.midpoint
  if succeeded then between? i.low middle else between? middle i.high

/-- Whether a point is one of the bounds, by value. -/
def hasBound (i : Interval) (x : Number) : Bool :=
  x.sameValue i.low || x.sameValue i.high

end Interval

end MemoryLimit
