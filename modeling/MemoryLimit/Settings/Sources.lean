import MemoryLimit.Host.Files
import MemoryLimit.Json.Reader
import MemoryLimit.Settings.Validation

/-!
# Where settings come from

Settings come from the environment and from a document. The values of the environment must be admitted
even where the document replaces them. Where it does, the settings of the environment are written out,
and what they and the document give is read again.

## Main definitions

* `environmentGiven` — the values that an environment gives.
* `Settings.ofEnvironment` — the settings of an environment, with some values given directly.
* `Settings.dump` — settings as values that they are read from.
* `Settings.load` — the settings of the environment and of a document.
-/
namespace MemoryLimit

open Text
open Yaml (Value)

/-- What the names of the variables with settings begin with, in lower case. -/
def variableStart : String := "memprobe_"

/-- The value that a variable gives to a setting. The command of the helper is written in JSON, and
counts as a text if it is not. -/
def variableValue (setting text : String) : Value :=
  if setting = "helper" then
    match Json.read? text with
    | some json => .ofJson json
    | none => .text text
  else .text text

/-- The values that an environment gives. The case of names does not count. -/
def environmentGiven (environment : List (String × String)) : Given :=
  environment.filterMap fun (name, text) =>
    let lower := String.ofList (lowerAscii name.toList)
    (Settings.names.find? fun setting => variableStart ++ setting = lower).map fun setting =>
      (setting, variableValue setting text)

namespace Settings

/-- The settings of an environment, with some values given directly, which count more. -/
def ofEnvironment (environment : List (String × String)) (given : Given) :
    Except (List Issue) Settings :=
  ({} : Settings).amend (environmentGiven environment ++ given)

/-- Settings as values by name, from which the same settings are read. -/
def dump (s : Settings) : Given :=
  let path (p : Path) : Value := .text p.text
  let texts (words : List String) : Value := .sequence (words.map .text)
  [("cgroup_root", path s.groupMount), ("proc_root", path s.processRoot),
    ("delegated_root", orNull path s.delegatedRoot), ("group_dir", .text s.groupDirectory),
    ("helper", orNull texts s.helper), ("helper_status_fd", orNull .bool s.helperStatus),
    ("timeout_s", orNull .float s.timeout), ("success_exit_code", .integer s.successExitCode),
    ("iterations", .integer s.iterations), ("low_bytes", .integer s.lowBytes),
    ("high_bytes", .integer s.highBytes),
    ("usage_store", orNull path s.historyFile), ("log_level", .text s.logLevel)]

/-- The values that a document gives to settings. A document that is no mapping gives none. -/
def documentGiven : Option Value → Given
  | some (.mapping entries) =>
    (entries.filterMap fun (key, v) => key.text?.map (·, v)).filter fun (name, _) =>
      names.contains name
  | _ => []

/-- The text of a document, if the file is there. -/
def readDocumentText? (p : Path) : Action Host (Option String) :=
  Action.onFault (some <$> Host.openText p) fun fault =>
    if fault.code = OsFault.noEntry then return none else throw (.os fault)

/-- The variable that names the document. -/
def documentVariable : String := "MEMPROBE_CONF"

/-- The path of the document if none is asked for. -/
def documentPath (environment : List (String × String)) : Path :=
  .read ((environment.lookup documentVariable).getD "conf/memprobe.yaml")

/-- The settings of the environment and of a document. A document that is not there gives none. -/
def load (asked : Option Path) : Action Host Settings := do
  let environment := (← get).environment
  let settle (given : Given) : Action Host Settings :=
    liftM ((ofEnvironment environment given).mapError Failure.settings)
  let base ← settle []
  match ← readDocumentText? (asked.getD (documentPath environment)) with
  | none => return base
  | some text =>
    match Yaml.readDocument text with
    | .error fault => throw (.document fault)
    | .ok value =>
      match documentGiven value with
      | [] => return base
      | given => settle (base.dump ++ given)

end Settings

end MemoryLimit
