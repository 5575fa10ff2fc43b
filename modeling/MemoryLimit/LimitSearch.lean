import MemoryLimit.Bisection.Search
import MemoryLimit.Log.Event
import MemoryLimit.Settings.Basic
import MemoryLimit.Usage.History

/-!
# The smallest limit that a workload survives

A search runs a workload under one limit after the other and bisects the interval of limits. A run
succeeds if it ends with the exit code of success; a run that could not be made ends the search. A
recorded success of the workload shortens the search: if the workload still succeeds at twice the
recorded limit, the boundary lies below that, and otherwise above it.

## Main definitions

* `Bench` — how trials are run and events reported.
* `Finding` — the boundary, the interval that was searched, the trials, and the best of them.
* `startingInterval` — the interval that the history leaves.
* `findLimitInPlace` — the search, which changes a history.
* `findLimit` — the search, which answers with the changed history.
-/
namespace MemoryLimit

/-- How trials are run under a limit, and how events are reported. -/
structure Bench (σ : Type) where
  run : Int → Action σ Usage
  report : Event → Action σ Unit

/-- What a search found: the least limit known, or assumed, to succeed; the interval that was searched;
the trials in order; and the successful trial with the smallest limit. -/
structure Finding where
  boundary : Int
  interval : Interval
  trials : List Usage
  best : Option Usage

variable {σ : Type}

/-- Whether a run succeeded. -/
def Settings.succeeded (settings : Settings) (usage : Usage) : Bool :=
  usage.exitCode == settings.successExitCode

/-- Whether a workload succeeds under a limit. -/
def canRun (bench : Bench σ) (settings : Settings) (limit : Int) : Action σ Bool := do
  return settings.succeeded (← bench.run limit)

/-- Of two records the one with the smaller limit; of two that tie, the first. -/
def smaller (x y : Usage) : Usage :=
  if y.limit < x.limit then y else x

/-- The successful trial with the smallest limit; of several, the first. -/
def bestTrial (settings : Settings) (trials : List Usage) : Option Usage :=
  match trials.filter settings.succeeded with
  | [] => none
  | first :: rest => some (rest.foldl smaller first)

/-- The key under which a workload is recorded: its name, if it has one that is not empty. -/
def historyKey? (workload : Option RawText) : Option RawText :=
  workload.filter (· ≠ RawText.ofString "")

/-- The record that a search may start from: a success of the workload inside the interval. -/
def usableRecord? (settings : Settings) (history : Option History) (workload : Option RawText)
    (interval : Interval) : Option (RawText × Usage) := do
  let history ← history
  let id ← historyKey? workload
  let usage ← history.get? id
  let limit := Number.ofInt usage.limit
  if settings.succeeded usage && interval.low < limit && limit ≤ interval.high then
    some (id, usage)
  else none

/-- The interval that the history leaves to be searched. The upper bound of the shortcut is twice the
recorded limit; if that is not below the upper bound of the interval, there is no shortcut. -/
def startingInterval (report : Event → Action σ Unit) (settings : Settings)
    (history : Option History) (workload : Option RawText) (interval : Interval)
    (ask : Number → Action σ Bool) : Action σ Interval :=
  match usableRecord? settings history workload interval with
  | none => pure interval
  | some (id, usage) => do
    let top ← Signal.raise (Context.standard.mul (.ofInt usage.limit) 2)
    if top < interval.high then
      if ← ask top then
        report (.intervalTightened id top)
        Interval.between? interval.low top
      else
        report (.historyStale id usage.limit)
        Interval.between? top interval.high
    else pure interval

/-- Runs a trial under a point cut to whole bytes, and keeps its record. -/
def trial (bench : Bench σ) (settings : Settings) (point : Number) : Action (σ × List Usage) Bool := do
  let usage ← Action.onFirst (bench.run point.floor)
  modify fun (s, trials) => (s, trials ++ [usage])
  return settings.succeeded usage

/-- The bisection of a search: the interval that it starts from, and the boundary. -/
def searchLimit (bench : Bench σ) (settings : Settings) (history : Option History)
    (interval : Interval) (workload : Option RawText) (iterations : Int) :
    Action (σ × List Usage) (Interval × Int) := do
  let report event := Action.onFirst (bench.report event)
  let ask := trial bench settings
  let start ← startingInterval report settings history workload interval ask
  report (.searchStarted start iterations workload)
  let point ← search start { iterations := some iterations } ask fun step =>
    report (.stepped step.index step.point step.succeeded step.left)
  return (start, point.ceil)

/-- The history after a search: the best trial is merged under the workload's name. -/
def recordBest (history : Option History) (workload : Option RawText) (best : Option Usage) :
    Except Signal (Option History) :=
  match history, historyKey? workload, best with
  | some history, some id, some usage => some <$> history.merge id usage
  | _, _, _ => return history

/-- Finds the smallest limit in an interval under which a workload succeeds, and changes the history
that is beside the state. The history is changed after the last trial; what follows is the report of
the end. -/
def findLimitInPlace (bench : Bench σ) (settings : Settings) (interval : Interval)
    (workload : Option RawText) (iterations : Option Int) :
    Action (σ × Option History) Finding := do
  let history := (← get).2
  let iterations := iterations.getD settings.iterations
  let ((start, boundary), trials) ← Action.onFirst (Action.withSecond []
    (searchLimit bench settings history interval workload iterations))
  let best := bestTrial settings trials
  let recorded ← Signal.raise (recordBest history workload best)
  modify fun (s, _) => (s, recorded)
  Action.onFirst (bench.report (.searchFinished boundary trials.length workload))
  return ⟨boundary, start, trials, best⟩

/-- Finds the smallest limit in an interval under which a workload succeeds. The answer has the history
as it is afterwards. -/
def findLimit (bench : Bench σ) (settings : Settings) (history : Option History)
    (interval : Interval) (workload : Option RawText) (iterations : Option Int) :
    Action σ (Finding × Option History) :=
  Action.withSecond history (findLimitInPlace bench settings interval workload iterations)

end MemoryLimit
