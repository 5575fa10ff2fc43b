import MemoryLimit.Settings.Basic
import MemoryLimit.Settings.Field

/-!
# Settings from values

Settings are given by name. All issues are found, in the order of the settings; names that no setting
has are ignored, and of several values for one name the last one counts.

## Main definitions

* `Given` — values by name.
* `Settings.amend` — settings with some of them replaced by given values.
-/
namespace MemoryLimit

open Yaml (Value)

/-- Values by name. -/
abbrev Given := List (String × Value)

namespace Given

/-- The value that is given for a name; of several, the last. -/
def value? (given : Given) (name : String) : Option Value :=
  given.reverse.lookup name

end Given

/-- A value, and what is wrong with the one that was given for it. -/
structure Checked (α : Type) where
  value : α
  issues : List Issue

/-- The given value for a name, or the present one if none is given or admitted. -/
def check {α : Type} (given : Given) (name : String) (present : α)
    (read : Value → Except (List Issue) α) : Checked α :=
  match given.value? name with
  | none => ⟨present, []⟩
  | some v =>
    match read v with
    | .ok a => ⟨a, []⟩
    | .error issues => ⟨present, issues.map fun issue => { issue with place := name :: issue.place }⟩

namespace Settings

/-- The names of the settings, in their order. -/
def names : List String :=
  ["cgroup_root", "proc_root", "delegated_root", "group_dir", "helper", "helper_status_fd",
    "timeout_s", "success_exit_code", "iterations", "low_bytes", "high_bytes", "usage_store",
    "log_level"]

/-- Settings with some of them replaced by given values, or all that is wrong with these. -/
def amend (s : Settings) (given : Given) : Except (List Issue) Settings :=
  let groupMount := check given "cgroup_root" s.groupMount (wholeIssue readPathField)
  let processRoot := check given "proc_root" s.processRoot (wholeIssue readPathField)
  let delegatedRoot :=
    check given "delegated_root" s.delegatedRoot (optionalField (wholeIssue readPathField))
  let groupDirectory := check given "group_dir" s.groupDirectory (wholeIssue readTextField)
  let helper := check given "helper" s.helper (optionalField readTextsField)
  let helperStatus :=
    check given "helper_status_fd" s.helperStatus (optionalField (wholeIssue readBoolField))
  let timeout := check given "timeout_s" s.timeout (optionalField (wholeIssue readFloatField))
  let successExitCode :=
    check given "success_exit_code" s.successExitCode (wholeIssue readIntegerField)
  let iterations := check given "iterations" s.iterations (wholeIssue readIntegerField)
  let lowBytes := check given "low_bytes" s.lowBytes (wholeIssue readIntegerField)
  let highBytes := check given "high_bytes" s.highBytes (wholeIssue readIntegerField)
  let historyFile :=
    check given "usage_store" s.historyFile (optionalField (wholeIssue readPathField))
  let logLevel := check given "log_level" s.logLevel (wholeIssue readTextField)
  match groupMount.issues ++ processRoot.issues ++ delegatedRoot.issues ++ groupDirectory.issues ++
    helper.issues ++ helperStatus.issues ++ timeout.issues ++ successExitCode.issues ++
    iterations.issues ++ lowBytes.issues ++ highBytes.issues ++ historyFile.issues ++
    logLevel.issues with
  | [] =>
    .ok
      { groupMount := groupMount.value
        processRoot := processRoot.value
        delegatedRoot := delegatedRoot.value
        groupDirectory := groupDirectory.value
        helper := helper.value
        helperStatus := helperStatus.value
        timeout := timeout.value
        successExitCode := successExitCode.value
        iterations := iterations.value
        lowBytes := lowBytes.value
        highBytes := highBytes.value
        historyFile := historyFile.value
        logLevel := logLevel.value }
  | issues => .error issues

end Settings

end MemoryLimit
