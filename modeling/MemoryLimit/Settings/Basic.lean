import MemoryLimit.Binary64.Basic
import MemoryLimit.Path

/-!
# Settings

## Main definitions

* `Settings` — what can be configured, with the values it has if nothing is.
* `Settings.helperWords` — the command that attaches and executes.
* `Settings.helperReports` — whether that command reports its faults on a pipe.
-/
namespace MemoryLimit

/-- What can be configured. -/
structure Settings where
  /-- The mount point of the unified hierarchy of groups. -/
  groupMount : Path := .read "/sys/fs/cgroup"
  /-- The directory in which the kernel describes the processes. -/
  processRoot : Path := .read "/proc"
  /-- The subtree that we may write to, if it is not the one of the user's session. -/
  delegatedRoot : Option Path := none
  /-- The name of the directory of our groups, and the beginning of their names. -/
  groupDirectory : String := "memprobe"
  /-- The command that attaches and executes, if it is not the bundled one. -/
  helper : Option (List String) := none
  /-- Whether that command reports its faults on a pipe; by default only the bundled one does. -/
  helperStatus : Option Bool := none
  /-- How many seconds a command may take. -/
  timeout : Option Binary64 := none
  /-- The exit code of a command that succeeded. -/
  successExitCode : Int := 95
  /-- How often a search halves its interval. -/
  iterations : Int := 8
  lowBytes : Int := 0
  highBytes : Int := 10000000000
  /-- The file with the history of the workloads. -/
  historyFile : Option Path := none
  logLevel : String := "INFO"
deriving DecidableEq, Repr, Inhabited

namespace Settings

/-- The words of the command that attaches and executes. An empty command is none. -/
def helperWords (s : Settings) (interpreter : String) : List String :=
  match s.helper with
  | some (word :: rest) => word :: rest
  | _ => [interpreter, "-m", "memprobe.executor.cgexec"]

/-- Whether the command that attaches and executes reports its faults on a pipe. -/
def helperReports (s : Settings) : Bool :=
  s.helperStatus.getD (s.helper.all List.isEmpty)

end Settings

end MemoryLimit
