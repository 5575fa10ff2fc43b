import MemoryLimit.Action
import MemoryLimit.Decimal.Figure
import MemoryLimit.Host.Tree
import MemoryLimit.Instances
import MemoryLimit.Log.Event
import MemoryLimit.Path

/-!
# The host

What this library touches outside itself, as one value: the file tree, the environment, the clock,
the child processes, and the record of what was reported. Calls to the operating system may be
disturbed, by a schedule that is part of the value, so a run is a function of the host it starts on.

## Main definitions

* `Disturbance` — a call to the operating system that goes wrong.
* `ChildPlan` — what the next child process does.
* `Launch` — a child process that was started, and what was done with it.
* `Deed` — what was done outside.
* `Descriptor` — an open end of a pipe.
* `Host` — all of it.
* `Host.report`, `Host.tick`, `Host.disturb`, `Host.print`, `Host.nap` — the smallest steps on a host.
* `Host.messages` — the messages that are written.
-/
namespace MemoryLimit

open Instances

/-- The calls to the operating system that may be disturbed. -/
inductive Call where
  | read
  | write
  | rmdir
  | mkdir
  | mkdtemp
  | mkstemp
  | fill
  | sleep
  | replace
  | unlink
  | print
deriving DecidableEq, Repr, Inhabited

/-- What becomes of a disturbed call. -/
inductive Effect where
  /-- The call fails, and changes nothing. -/
  | fail (fault : OsFault)
  /-- A move fails, and the file that is moved is lost. -/
  | lose (fault : OsFault)
  /-- A read answers with this text. -/
  | answer (text : String)
  /-- A write does nothing and reports success. -/
  | ignore
deriving DecidableEq, Repr

/-- A call that goes wrong: which one, the last name of its path if that matters, how many such calls
pass before it does, and how often it does (for ever, if that is not given). -/
structure Disturbance where
  call : Call
  name : Option String := none
  after : Nat := 0
  times : Option Nat := none
  effect : Effect
deriving DecidableEq, Repr

namespace Disturbance

/-- Whether a disturbance is about a call on a path with this last name. -/
def concerns (d : Disturbance) (call : Call) (name : String) : Bool :=
  d.call == call && d.name.all (· == name) && d.times != some 0

/-- The disturbance after it was used once. -/
def used (d : Disturbance) : Disturbance :=
  { d with times := d.times.map (· - 1) }

/-- The effect on a call, and the schedule that is left. The first disturbance that concerns the call
and lets no more calls pass applies. -/
def strike (call : Call) (name : String) :
    List Disturbance → Option Effect × List Disturbance
  | [] => (none, [])
  | d :: rest =>
    if d.concerns call name then
      match d.after with
      | 0 => (some d.effect, d.used :: rest)
      | n + 1 =>
        let (effect, left) := strike call name rest
        (effect, { d with after := n } :: left)
    else
      let (effect, left) := strike call name rest
      (effect, d :: left)

end Disturbance

/-- What a child process does: whether it starts, what it leaves in its group, on its status pipe and
in its output files, and how it ends. -/
structure ChildPlan where
  /-- The process cannot be started. -/
  startFault : Option OsFault := none
  /-- Files that appear in the group, by name. -/
  groupFiles : List (String × ByteArray) := []
  /-- Bytes on the status pipe, if there is one. -/
  status : ByteArray := .empty
  /-- Bytes on the standard output. -/
  output : ByteArray := .empty
  /-- Bytes on the standard error output. -/
  errors : ByteArray := .empty
  /-- The exit code. -/
  exitCode : Int := 95
  /-- The least limit under which it ends by itself; below it, it is killed. -/
  needs : Option Int := none
  /-- How long it runs; a wait with a shorter timeout expires. -/
  duration : Option Binary64 := none
  /-- The first wait is interrupted. -/
  interrupted : Bool := false
  /-- Its process group is gone when it is to be killed. -/
  gone : Bool := false
deriving Inhabited

/-- What was done with a child process. -/
inductive ChildEvent where
  /-- It was waited for, with or without a timeout. -/
  | waited (timeout : Option Binary64)
  /-- Its process group was killed. -/
  | killed
deriving DecidableEq, Repr

/-- What was done outside: a call that may be disturbed, a process started, or something done with it. -/
inductive Deed where
  | called (call : Call) (path : Path)
  | started
  | child (event : ChildEvent)
deriving DecidableEq, Repr

/-- A child process that was started: its words, environment and directory, whether it leads a session
of its own and has a status pipe, and what was done with it. -/
structure Launch where
  words : List String
  environment : List (String × String)
  directory : Option String
  ownSession : Bool
  statusPipe : Bool
  events : List ChildEvent := []
deriving DecidableEq, Repr, Inhabited

/-- An open end of a pipe: its number, whether it is the end that is written to, whether programs that
are executed inherit it, and the bytes written to it. -/
structure Descriptor where
  number : Int
  writable : Bool
  inherited : Bool
  written : ByteArray := .empty
deriving DecidableEq, Inhabited

/-- What this library touches outside itself. -/
structure Host where
  tree : Tree := {}
  /-- The working directory. -/
  directory : RealPlace := .root
  userId : Nat := 0
  processId : Nat := 1
  environment : List (String × String) := []
  /-- The program that runs the bundled helper. -/
  interpreter : String := ""
  /-- The mount point of the unified hierarchy. -/
  mount : String := "/sys/fs/cgroup"
  disturbances : List Disturbance := []
  /-- How many fresh names were drawn. -/
  freshNames : Nat := 0
  /-- The results of reading the monotonic clock; the last one repeats. -/
  clock : List Binary64 := []
  /-- Removing a group removes its interface files, as the kernel does. -/
  interfaceFilesVanish : Bool := true
  child : ChildPlan := {}
  /-- The call that executes a program fails, whatever its words are. -/
  executionFault : Option OsFault := none
  descriptors : List Descriptor := []
  /-- The number of the next pipe's first end. -/
  freeDescriptor : Nat := 3
  /-- What was done outside, in order. -/
  deeds : List Deed := []
  /-- What was reported, in order. -/
  journal : List Event := []
  /-- The pauses that were made, in order. -/
  naps : List Figure := []
  /-- The child processes that were started, in order. -/
  launches : List Launch := []
  /-- The calls that execute a program, by the words that they were given, in order. -/
  executions : List (List String) := []
  /-- The rank of the least messages that are written. -/
  threshold : Nat := 0
  /-- The lines written to the standard output, in order. -/
  outputLines : List String := []
  /-- The lines written to the standard error output, in order. -/
  errorLines : List String := []
deriving Inhabited

namespace Host

/-- Reports an event. -/
def report (event : Event) : Action Host Unit :=
  modify fun h => { h with journal := h.journal ++ [event] }

/-- The messages that are written. -/
def messages (h : Host) : List Message :=
  (h.journal.map Event.message).filter (Message.passes h.threshold)

/-- Writes a line to the standard error output. -/
def complain (line : String) : Action Host Unit :=
  modify fun h => { h with errorLines := h.errorLines ++ [line] }

/-- Reads the monotonic clock. -/
def tick : Action Host Binary64 :=
  modifyGet fun h =>
    match h.clock with
    | [] => (.zero false, h)
    | [last] => (last, h)
    | now :: later => (now, { h with clock := later })

/-- Notes what was done. -/
def note (deed : Deed) : Action Host Unit :=
  modify fun h => { h with deeds := h.deeds ++ [deed] }

/-- Makes a call on a path: the effect that the schedule has on it. -/
def disturb (call : Call) (p : Path) : Action Host (Option Effect) := do
  note (.called call p)
  modifyGet fun h =>
    let (effect, left) := Disturbance.strike call p.name h.disturbances
    (effect, { h with disturbances := left })

/-- Makes a call on a path, which fails if the schedule says so. -/
def pass (call : Call) (p : Path) : Action Host Unit := do
  match ← disturb call p with
  | some (.fail fault) => throw (.os fault)
  | _ => pure ()

/-- Writes a line to the standard output. -/
def print (line : String) : Action Host Unit := do
  pass .print .empty
  modify fun h => { h with outputLines := h.outputLines ++ [line] }

/-- Pauses. -/
def nap (delay : Figure) : Action Host Unit := do
  modify fun h => { h with naps := h.naps ++ [delay] }
  pass .sleep .empty

end Host

end MemoryLimit
