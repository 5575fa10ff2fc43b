import MemoryLimit.CommandLine.Grammar
import MemoryLimit.Group.ControlFile

/-!
# Attaching to a group

The helper moves itself into a group and then becomes the command. What goes wrong is written to the
standard error output and, if a status pipe is given, to that pipe, as the stage, the number and the
description of the fault. The pipe is closed when the command begins, so a command that was started
leaves it empty, and its exit code is never taken for one of the helper's.

## Main definitions

* `AttachRequest` — the group, the command, and the status pipe.
* `AttachRequest.read` — reads a request from a command line.
* `attach` — attaches and executes.
-/
namespace MemoryLimit

open CommandLine

/-- What the helper is asked to do. -/
structure AttachRequest where
  status : Option Int := none
  group : String := ""
  command : List String := []
deriving DecidableEq, Repr, Inhabited

/-- How the helper ends. -/
inductive AttachEnd where
  /-- It became the command. -/
  | executed
  /-- It ended with an exit code. -/
  | exited (code : Nat)
deriving DecidableEq, Repr

/-- The exit code when the group cannot be entered. -/
def attachFailedCode : Nat := 125

/-- The exit code when the command cannot be executed. -/
def executionFailedCode : Nat := 127

namespace AttachRequest

/-- The option that names the status pipe. -/
def statusOption : Opt AttachRequest where
  spellings := ["--status-fd"]
  effect := .value fun text r => do return { r with status := some (← integerValue text) }

/-- The command line of the helper. -/
def grammar : Grammar AttachRequest where
  program := "cgexec"
  options := [helpOption, statusOption]
  operands :=
    [⟨"cgroup", .single, fun words r => .ok ({ r with group := words.headD "" }, [])⟩,
      ⟨"cmd", .rest, fun words r => .ok ({ r with command := words }, [])⟩]

/-- Reads a request from a command line. There must be a command. -/
def read (words : List String) : Except Stop AttachRequest := do
  let request ← grammar.read words {}
  match withoutDivider request.command with
  | [] => grammar.misuse .missingCommand
  | command => return { request with command := command }

end AttachRequest

/-- Keeps the status pipe from being inherited. -/
def closeOnExecution (number : Int) : Action Host Unit := do
  if maxDescriptor < number || number < -maxDescriptor - 1 then throw (.descriptorRange number)
  else
    if (← get).descriptors.any (·.number == number) then
      modify fun h =>
        { h with
          descriptors := h.descriptors.map fun d =>
            if d.number = number then { d with inherited := false } else d }
    else throw (.os (.ofCode OsFault.badDescriptor))

/-- Writes to a pipe. Bytes for an end that cannot be written to are lost. -/
def writeStatus (number : Int) (text : String) : Action Host Unit :=
  modify fun h =>
    { h with
      descriptors := h.descriptors.map fun d =>
        if d.number = number && d.writable then { d with written := d.written ++ text.toUTF8 } else d }

/-- A fault as it is written to the status pipe. -/
def statusText (stage : String) (fault : OsFault) : String :=
  stage ++ ":" ++ toString fault.code ++ ":" ++ fault.description

/-- Writes to the status pipe, if there is one. -/
def AttachRequest.reportStatus (request : AttachRequest) (text : String) : Action Host Unit :=
  match request.status with
  | some number => writeStatus number text
  | none => pure ()

/-- Reports a fault and ends. -/
def failAttach (request : AttachRequest) (stage aim : String) (code : Nat) (fault : OsFault) :
    Action Host AttachEnd := do
  Host.complain ("cgexec: cannot " ++ aim ++ ": " ++ fault.text)
  request.reportStatus (statusText stage fault)
  return .exited code

/-- Why words cannot be handed to a program, if they cannot: one of them holds the character that ends
it, or the first one is empty. -/
def unpassable? (words : List String) : Option InvalidValue :=
  let program := words.headD ""
  if program.toList.contains '\x00' then
    some (if program.toList.contains '/' then .nullCharacter else .nullInProgram)
  else if words.any fun word => word.toList.contains '\x00' then some .nullCharacter
  else if program = "" then some .emptyProgram
  else none

/-- Becomes a command. -/
def execute (words : List String) : Action Host Unit := do
  modify fun h => { h with executions := h.executions ++ [words] }
  match (← get).executionFault, unpassable? words with
  | some fault, _ => throw (.os fault)
  | none, some cause => throw (.invalid cause)
  | none, none => pure ()

/-- The status pipe is not for the command. -/
def AttachRequest.keepStatus (request : AttachRequest) : Action Host Unit :=
  match request.status with
  | some number => closeOnExecution number
  | none => pure ()

/-- The group of a request. A relative one is below the mount. -/
def AttachRequest.groupOn (request : AttachRequest) (h : Host) : Path :=
  (Path.read h.mount).child request.group

/-- Enters the group of a request and becomes its command. -/
def attach (request : AttachRequest) : Action Host AttachEnd := do
  request.keepStatus
  let group := request.groupOn (← get)
  let attached ← Action.onFault
    (do
      Host.writeText (group.child ControlFile.processes) "0"
      return none)
    (fun fault => return some fault)
  match attached with
  | some fault => failAttach request "attach" ("attach to " ++ group.text) attachFailedCode fault
  | none =>
    Action.onFault
      (do
        execute request.command
        return .executed)
      (failAttach request "exec" ("exec " ++ request.command.headD "") executionFailedCode)

/-- Attaches and executes as a command line asks. -/
def attachMain (words : List String) : Action Host AttachEnd :=
  match AttachRequest.read words with
  | .ok request => attach request
  | .error .help => return .exited 0
  | .error (.misuse program fault) => do
    Host.complain (misuseLine program fault)
    return .exited 2
  | .error (.failure failure) => throw failure

end MemoryLimit
