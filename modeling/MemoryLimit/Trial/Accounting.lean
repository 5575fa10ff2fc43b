import MemoryLimit.Group.Leaf
import MemoryLimit.Trial.Load
import MemoryLimit.Usage.Record

/-!
# Accounting

The record of a run is made while its group still exists. If the processor time cannot be read it
counts as zero, and that is reported.

## Main definitions

* `readCpu` — the processor seconds of a group.
* `collect` — the record of a run.
-/
namespace MemoryLimit

/-- A failure to read the processor time. -/
def accountingFailure {α : Type} (fault : AccountingFault) : Action Host α :=
  throw (.accounting fault)

/-- Microseconds as seconds. -/
def microseconds (n : Int) : Except Failure Decimal :=
  Signal.raise (Decimal.finite <$> Context.standard.divNumber (.ofInt n) (.ofInt 1000000))

/-- The processor seconds used by all processes that were ever in a group. -/
def readCpu (group : Path) : Action Host Decimal := do
  let file := group.child ControlFile.cpuStat
  let key := ControlFile.usageMicroseconds
  let stat ← Action.onFault (readKeyed file) fun fault =>
    accountingFailure (.unreadable file.text fault)
  match lastValue? key stat with
  | none => accountingFailure (.missing key file.text)
  | some value =>
    match readInteger value with
    | .error _ => accountingFailure (.malformed key file.text value)
    | .ok n => microseconds n

/-- The processor seconds of a group, or zero with a report of why they are not known. -/
def cpuOrZero (group : Path) : Action Host Decimal :=
  tryCatch (readCpu group) fun
    | .accounting fault => do
      Host.report (.accountingUnavailable group.text fault.message)
      return .ofInt 0
    | failure => throw failure

/-- The wall seconds between two readings of the clock, as shown; a clock that went back gives zero. -/
def elapsed (start now : Binary64) : Except Failure Decimal :=
  Signal.raise (decimalOfText (now.sub start).orZero.text)

/-- The record of a run in a leaf that began at `start` and ended with an exit code. -/
def collect (leaf : Leaf) (start : Binary64) (exitCode : Int) : Action Host Usage := do
  let cpu ← cpuOrZero leaf.path
  let wall ← elapsed start (← Host.tick)
  let load ← Signal.raise (averageLoad cpu wall)
  Host.report (.usageCollected leaf.path.text exitCode cpu.toBinary64 wall.toBinary64 load)
  return ⟨exitCode, cpu, wall, leaf.limit⟩

end MemoryLimit
