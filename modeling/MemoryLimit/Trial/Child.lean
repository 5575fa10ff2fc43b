import MemoryLimit.Host.Files
import MemoryLimit.Group.ControlFile

/-!
# Child processes

Starting a process, waiting for it and killing its process group, as steps on the host. What the
process does is the plan of the host.

## Main definitions

* `Host.start` — starts a process.
* `Host.wait` — waits for it, with or without a timeout.
* `Host.killGroup` — kills its process group.
-/
namespace MemoryLimit

/-- How a wait ended. -/
inductive WaitOutcome where
  /-- The process ended with an exit code. -/
  | exited (code : Int)
  /-- The timeout expired first. -/
  | expired
deriving DecidableEq, Repr

/-- The exit code of a process that was killed. -/
def killedCode : Int := -9

namespace Host

/-- The number of every process that is started. -/
def childId : Nat := 777

/-- Notes what was done with the last process that was started. -/
def noteChild (event : ChildEvent) : Action Host Unit := do
  note (.child event)
  modify fun h =>
    match h.launches.getLast? with
    | some last =>
      let noted := { last with events := last.events ++ [event] }
      { h with launches := h.launches.dropLast ++ [noted] }
    | none => h

/-- What was done with the last process that was started. -/
def childEvents : Action Host (List ChildEvent) := do
  return ((← get).launches.getLast?.map Launch.events).getD []

/-- Puts bytes into a file, without being disturbed. -/
def placeFile (p : Path) (bytes : ByteArray) : Action Host Unit :=
  change p fun t directory p => t.writeFile directory p bytes

/-- Puts files into a directory. -/
def placeFiles (directory : Path) : List (String × ByteArray) → Action Host Unit
  | [] => pure ()
  | (name, bytes) :: rest => do
    placeFile (directory.child name) bytes
    placeFiles directory rest

/-- Puts bytes into a file, if there is one. -/
def placeOutput (file : Option Path) (bytes : ByteArray) : Action Host Unit :=
  match file with
  | some p => placeFile p bytes
  | none => pure ()

/-- Starts a process in a group. Its output goes to the given files. -/
def start (launch : Launch) (group : Path) (output errors : Option Path) : Action Host Unit := do
  modify fun h => { h with launches := h.launches ++ [launch] }
  let plan := (← get).child
  match plan.startFault with
  | some fault => throw (.os fault)
  | none =>
    placeFiles group plan.groupFiles
    placeOutput output plan.output
    placeOutput errors plan.errors
    note .started

/-- The limit of a group, if its control file has one. -/
def limitOf? (group : Path) : Action Host (Option Int) := do
  let h ← get
  match h.tree.readFile h.directory (group.child ControlFile.memoryMax) with
  | .ok bytes =>
    match String.fromUTF8? bytes with
    | some text => return (readInteger text).toOption
    | none => return none
  | .error _ => return none

/-- The exit code of a process that was not killed by us. -/
def ownExitCode (group : Path) : Action Host Int := do
  let plan := (← get).child
  match plan.needs with
  | none => return plan.exitCode
  | some needs =>
    match ← limitOf? group with
    | some limit => if needs ≤ limit then return plan.exitCode else return killedCode
    | none => return killedCode

/-- Whether a wait expires before a process ends. -/
def expires (duration timeout : Option Binary64) : Bool :=
  match duration, timeout with
  | some d, some t => t.lt d
  | _, _ => false

/-- Waits for the process. -/
def wait (group : Path) (timeout : Option Binary64) : Action Host WaitOutcome := do
  let before ← childEvents
  noteChild (.waited timeout)
  let plan := (← get).child
  if plan.interrupted && before.isEmpty then throw .interrupted
  else if before.contains .killed then return .exited killedCode
  else if expires plan.duration timeout then return .expired
  else return .exited (← ownExitCode group)

/-- Kills the process group of the process, which fails if that is gone. -/
def killGroup : Action Host Unit := do
  noteChild .killed
  if (← get).child.gone then throw (.os (.ofCode OsFault.noProcess))

end Host

end MemoryLimit
