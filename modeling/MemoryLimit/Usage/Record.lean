import MemoryLimit.Decimal.Context

/-!
# Usage records

What one run of a workload under a memory limit used. Records of one workload are ordered by their
limit first; the other figures only break ties, so that the order in which records are merged never
matters.

## Main definitions

* `Usage` — the figures of one run.
* `Usage.larger` — of two records, the one that is kept.
-/
namespace MemoryLimit

/-- The figures of one run: how it ended, processor and wall seconds, and the limit in bytes. -/
structure Usage where
  exitCode : Int
  cpuSeconds : Decimal
  wallSeconds : Decimal
  limit : Int
deriving DecidableEq, Repr, Inhabited

namespace Usage

/-- Whether the first of two decimal numbers comes after the second, and whether they tie. -/
def compareSeconds (x y : Decimal) : Except Signal Ordering := do
  if ← x.sameValue y then return .eq
  x.compare y

/-- The order of two records: by limit, exit code, processor seconds and wall seconds. -/
def compare (x y : Usage) : Except Signal Ordering := do
  match (Ord.compare x.limit y.limit).then (Ord.compare x.exitCode y.exitCode) with
  | .eq =>
    match ← compareSeconds x.cpuSeconds y.cpuSeconds with
    | .eq => compareSeconds x.wallSeconds y.wallSeconds
    | order => return order
  | order => return order

/-- The larger of two records; of two that tie, the first. -/
def larger (x y : Usage) : Except Signal Usage := do
  match ← y.compare x with
  | .gt => return y
  | _ => return x

end Usage

end MemoryLimit
