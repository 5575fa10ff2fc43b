import MemoryLimit.Bisection.Interval
import MemoryLimit.Decimal.Printer
import MemoryLimit.Log.Message

/-!
# Events

What the parts of this library report while they work. An event is kept as what happened; its level,
its name and the form of its values are decided in one place.

## Main definitions

* `Event` — what happened.
* `Event.message` — the message that reports it.
-/
namespace MemoryLimit

/-- What happened. -/
inductive Event where
  /-- An interval was halved. -/
  | stepped (index : Nat) (point : Number) (succeeded : Bool) (left : Interval)
  /-- A search began. -/
  | searchStarted (interval : Interval) (iterations : Int) (workload : Option RawText)
  /-- The recorded limit of a workload still holds at twice its value. -/
  | intervalTightened (workload : RawText) (high : Number)
  /-- The recorded limit of a workload no longer holds at twice its value. -/
  | historyStale (workload : RawText) (recorded : Int)
  /-- A search ended. -/
  | searchFinished (boundary : Int) (trials : Nat) (workload : Option RawText)
  /-- The file of usage records does not exist. -/
  | storeMissing (path : String)
  /-- The file of usage records was read. -/
  | storeLoaded (path : String) (records : Nat)
  /-- The file of usage records was written. -/
  | storeSaved (path : String) (records : Nat)
  /-- The group of this process could not be found out. -/
  | ownGroupUnknown (reason : String)
  /-- This process is not below the subtree that we may write to. -/
  | outsideDelegatedRoot (group root : String)
  /-- A group was made. -/
  | groupCreated (path : String) (limit : Int)
  /-- A group was removed. -/
  | groupDestroyed (path : String)
  /-- A group could not be removed. -/
  | groupDestroyFailed (path : String) (reason : Option String)
  /-- A group could not be killed. -/
  | groupKillFailed (path reason : String)
  /-- A command is about to be started. -/
  | trialStarted (limit : Int) (group : String) (command : List String)
  /-- A command took too long. -/
  | trialTimeout (process : Nat) (timeout : Option Binary64)
  /-- A command ended. -/
  | trialFinished (limit exitCode : Int)
  /-- The processor time of a group could not be read. -/
  | accountingUnavailable (path reason : String)
  /-- The usage of a run was determined. -/
  | usageCollected (path : String) (exitCode : Int) (cpu wall : Binary64) (load : Option Binary64)
  /-- The program ends with a failure. -/
  | failed (reason kind : String)

/-- A text that may be missing. -/
def optionalText : Option RawText → Json
  | some s => .string s
  | none => .null

/-- A number that may be missing. -/
def optionalFloat : Option Binary64 → Json
  | some x => .float x
  | none => .null

/-- The message that reports an event. -/
def Event.message : Event → Message
  | stepped index point succeeded left =>
    ⟨.debug, "bisect_step",
      [("step", .integer index), ("value", .string point.text), ("succeeded", .bool succeeded),
        ("low", .string left.low.text), ("high", .string left.high.text)]⟩
  | searchStarted interval iterations workload =>
    ⟨.info, "bisect_started",
      [("low", .string interval.low.text), ("high", .string interval.high.text),
        ("iterations", .integer iterations), ("workload_id", optionalText workload)]⟩
  | intervalTightened workload high =>
    ⟨.info, "bisect_interval_tightened",
      [("workload_id", .string workload), ("high", .string high.text)]⟩
  | historyStale workload recorded =>
    ⟨.info, "bisect_history_stale",
      [("workload_id", .string workload), ("recorded", .integer recorded)]⟩
  | searchFinished boundary trials workload =>
    ⟨.info, "bisect_finished",
      [("boundary", .integer boundary), ("trials", .integer trials),
        ("workload_id", optionalText workload)]⟩
  | storeMissing path => ⟨.info, "usage_store_missing", [("path", .string path)]⟩
  | storeLoaded path records =>
    ⟨.info, "usage_store_loaded", [("path", .string path), ("records", .integer records)]⟩
  | storeSaved path records =>
    ⟨.info, "usage_store_saved", [("path", .string path), ("records", .integer records)]⟩
  | ownGroupUnknown reason => ⟨.debug, "self_cgroup_unknown", [("error", .string reason)]⟩
  | outsideDelegatedRoot group root =>
    ⟨.warning, "outside_delegated_root",
      [("cgroup", .string group), ("delegated_root", .string root)]⟩
  | groupCreated path limit =>
    ⟨.debug, "cgroup_created", [("path", .string path), ("memory_max", .integer limit)]⟩
  | groupDestroyed path => ⟨.debug, "cgroup_destroyed", [("path", .string path)]⟩
  | groupDestroyFailed path reason =>
    ⟨.warning, "cgroup_destroy_failed",
      ("path", .string path) :: (reason.toList.map fun (text : String) => ("error", .string text))⟩
  | groupKillFailed path reason =>
    ⟨.warning, "cgroup_kill_failed", [("path", .string path), ("error", .string reason)]⟩
  | trialStarted limit group command =>
    ⟨.info, "trial_started",
      [("limit", .integer limit), ("cgroup", .string group),
        ("cmd", .array (command.map fun (word : String) => .string word))]⟩
  | trialTimeout process timeout =>
    ⟨.warning, "trial_timeout", [("pid", .integer process), ("timeout_s", optionalFloat timeout)]⟩
  | trialFinished limit exitCode =>
    ⟨.info, "trial_finished", [("limit", .integer limit), ("exit_code", .integer exitCode)]⟩
  | accountingUnavailable path reason =>
    ⟨.warning, "cpu_accounting_unavailable", [("path", .string path), ("error", .string reason)]⟩
  | usageCollected path exitCode cpu wall load =>
    ⟨.info, "usage_collected",
      [("path", .string path), ("exit_code", .integer exitCode), ("cpu_s", .float cpu),
        ("wall_s", .float wall), ("load", optionalFloat load)]⟩
  | failed reason kind =>
    ⟨.error, "memprobe_failed", [("error", .string reason), ("kind", .string kind)]⟩

end MemoryLimit
