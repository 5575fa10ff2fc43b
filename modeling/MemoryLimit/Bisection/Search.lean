import MemoryLimit.Action
import MemoryLimit.Bisection.Interval

/-!
# Bisection

A search halves an interval until a rule ends it. At each midpoint it asks whether it succeeds there,
and goes on in the lower half if so and in the upper half otherwise; the answer is the upper bound of
the last interval. Whoever answers may keep a state of its own and may fail, so the answers can depend
on everything that was asked before.

## Main definitions

* `Step` — what happened at one midpoint.
* `bisect` — at most so many steps, or until a condition holds.
* `StopRule` — when a search ends.
* `searchInterval` — the interval that a search leaves.
* `search` — its upper bound.
-/
namespace MemoryLimit

/-- What happened at one midpoint: its number, the point, the answer, and the interval that is left. -/
structure Step where
  index : Nat
  point : Number
  succeeded : Bool
  left : Interval

variable {σ : Type}

/-- Halves an interval at most `fuel` times, or until `done` holds of the half. It ends early where a
midpoint coincides with a bound, because halving then moves nothing. `note` is told of each step. -/
def bisect (ask : Number → Action σ Bool) (note : Step → Action σ Unit)
    (done : Interval → Except Failure Bool) : Nat → Nat → Interval → Action σ Interval
  | 0, _, current => pure current
  | fuel + 1, index, current => do
    let middle ← Signal.raise current.midpoint
    if current.hasBound middle then pure current
    else
      let succeeded ← ask middle
      let left ← current.narrow succeeded
      note ⟨index + 1, middle, succeeded, left⟩
      if ← done left then pure left
      else bisect ask note done fuel (index + 1) left

/-- Halves an interval at most `count` times. -/
def walk (interval : Interval) (count : Int) (ask : Number → Action σ Bool)
    (note : Step → Action σ Unit := fun _ => pure ()) : Action σ Interval :=
  if count < 0 then throw (.invalid .negativeSteps)
  else bisect ask note (fun _ => pure false) count.toNat 0 interval

/-- When a search ends: after so many questions, or once the interval is no wider than `tolerance`,
which is taken relative to the upper bound if `relative` is set; whichever comes first. -/
structure StopRule where
  iterations : Option Int := none
  tolerance : Option Figure := none
  relative : Bool := false

/-- A stop rule that was found to be one. -/
structure StopRule.Checked where
  iterations : Option Nat
  tolerance : Option Decimal
  relative : Bool

/-- The most steps that a tolerance alone allows. -/
def maxSteps : Nat := 400

namespace StopRule

/-- Finds out whether a rule ends a search at all. -/
def check (rule : StopRule) : Except Failure Checked := do
  if rule.iterations.isNone && rule.tolerance.isNone then throw (.invalid .noStopRule)
  if rule.iterations.any (· < 0) then throw (.invalid .negativeIterations)
  let tolerance ← rule.tolerance.mapM fun figure => do
    let epsilon ← Signal.raise figure.toDecimal
    match ← Signal.raise (epsilon.compare (.ofInt 0)) with
    | .gt => pure epsilon
    | _ => throw (.invalid .toleranceNotPositive)
  pure ⟨rule.iterations.map Int.toNat, tolerance, rule.relative⟩

end StopRule

namespace StopRule.Checked

/-- How often a width must be halved until it is no more than a tolerance, up to `fuel` times. -/
def halvings (tolerance : Decimal) : Nat → Number → Except Failure Nat
  | 0, _ => pure 0
  | fuel + 1, width => do
    match ← Signal.raise (Decimal.compare (.finite width) tolerance) with
    | .gt =>
      let half ← Signal.raise (Interval.context.half width)
      return (← halvings tolerance fuel half) + 1
    | _ => pure 0

/-- The most steps that the tolerance of a rule allows. A relative one may never be met where the upper
bound approaches zero. -/
def toleranceSteps (rule : Checked) (interval : Interval) (tolerance : Decimal) :
    Except Failure Nat := do
  if rule.relative then pure maxSteps
  else halvings tolerance maxSteps (← Signal.raise interval.width)

/-- The most steps that a rule allows. -/
def steps (rule : Checked) (interval : Interval) : Except Failure Nat := do
  match rule.tolerance with
  | none => pure (rule.iterations.getD 0)
  | some tolerance =>
    let bound ← rule.toleranceSteps interval tolerance
    match rule.iterations with
    | none => pure bound
    | some n => pure (min n bound)

/-- The width that a rule allows an interval to have. -/
def allowedWidth (rule : Checked) (interval : Interval) (tolerance : Decimal) :
    Except Signal Decimal :=
  if rule.relative then do
    let scale ← Context.standard.abs interval.high
    match tolerance with
    | .finite epsilon => Decimal.finite <$> Context.standard.mul epsilon scale
    | _ => if scale.coefficient = 0 then throw .invalidOperation else pure tolerance
  else pure tolerance

/-- Whether an interval is narrow enough for the tolerance of a rule. -/
def converged (rule : Checked) (interval : Interval) : Except Failure Bool :=
  match rule.tolerance with
  | none => pure false
  | some tolerance => Signal.raise do
    let allowed ← rule.allowedWidth interval tolerance
    let width ← interval.width
    return (← Decimal.compare (.finite width) allowed) != .gt

end StopRule.Checked

/-- Bisects an interval until the rule ends the search. The answer is what is left of the interval. -/
def searchInterval (interval : Interval) (rule : StopRule) (ask : Number → Action σ Bool)
    (note : Step → Action σ Unit := fun _ => pure ()) : Action σ Interval := do
  let rule ← rule.check
  let steps ← rule.steps interval
  if ← rule.converged interval then pure interval
  else bisect ask note rule.converged steps 0 interval

/-- The upper bound of the interval that a search leaves: the least point known to succeed, or the upper
bound that was given if none is. -/
def search (interval : Interval) (rule : StopRule) (ask : Number → Action σ Bool)
    (note : Step → Action σ Unit := fun _ => pure ()) : Action σ Number := do
  return (← searchInterval interval rule ask note).high

end MemoryLimit
