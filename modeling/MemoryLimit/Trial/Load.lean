import MemoryLimit.Binary64.Basic
import MemoryLimit.Decimal.Context

/-!
# Average load

## Main definitions

* `averageLoad` — how many processors a run kept busy on average.
-/
namespace MemoryLimit

/-- The binary number nearest to a decimal number. -/
def Decimal.toBinary64 : Decimal → Binary64
  | .finite x => .ofDecimal x.negative x.coefficient x.exponent
  | .infinity negative => .infinity negative
  | .nan .. => .nan

/-- Processor seconds over wall seconds to three places, or nothing for a run that took no time. -/
def averageLoad (cpu wall : Decimal) : Except Signal (Option Binary64) :=
  if wall.isNonzero then do
    let load ← Decimal.div Context.standard cpu wall
    return some (load.toBinary64.roundPlaces 3)
  else return none

end MemoryLimit
