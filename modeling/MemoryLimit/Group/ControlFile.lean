import MemoryLimit.Host.Files
import MemoryLimit.Text.Blank

/-!
# Control files

A group of processes is a directory whose files are read and written to control it. Whatever refuses
a write is one kind of failure: the group is unavailable.

## Main definitions

* `ControlFile` — the names of the files used here.
* `readKeyed` — a file with a key and a value on each line.
* `writeValue`, `writeThenCheck` — a value written, and a value that must be read back.
* `removeGroup` — removes a group, which may take several attempts.
* `groupOf` — the group of a process.
-/
namespace MemoryLimit

namespace ControlFile

/-- The controllers that the children of a group may use. -/
def subtreeControl : String := "cgroup.subtree_control"
/-- The controllers that a group may use. -/
def controllers : String := "cgroup.controllers"
/-- The processes of a group. -/
def processes : String := "cgroup.procs"
/-- Kills all processes of a group. -/
def kill : String := "cgroup.kill"
/-- The most memory that a group may use. -/
def memoryMax : String := "memory.max"
/-- The most swap space that a group may use. -/
def swapMax : String := "memory.swap.max"
/-- The processor time of a group. -/
def cpuStat : String := "cpu.stat"
/-- The key of the processor time in microseconds. -/
def usageMicroseconds : String := "usage_usec"

end ControlFile

/-- The key and the value of a line that has two words. -/
def keyedLine? (line : List Char) : Option (String × String) :=
  match Text.words line with
  | [key, value] => some (String.ofList key, String.ofList value)
  | _ => none

/-- The keys and values of a text, in the order of its lines. -/
def keyedLines (text : String) : List (String × String) :=
  (Text.splitLines text.toList).filterMap keyedLine?

/-- The value of a key; of several, the last. -/
def lastValue? (key : String) (pairs : List (String × String)) : Option String :=
  pairs.reverse.lookup key

/-- The keys and values of a file. -/
def readKeyed (p : Path) : Action Host (List (String × String)) := do
  return keyedLines (← Host.readText p)

/-- Writes a value to a control file. -/
def writeValue (p : Path) (value : String) : Action Host Unit :=
  Action.onFault (Host.writeText p value) fun fault =>
    throw (.unavailable (.writeRefused p.text value fault))

/-- Writes a value to a control file and reads it back. Blanks around the value that is read do not
count. -/
def writeThenCheck (p : Path) (value : String) : Action Host Unit := do
  writeValue p value
  let text ← Action.onFault (Host.readText p) fun fault =>
    throw (.unavailable (.unreadableBack p.text fault))
  let back := String.ofList (Text.trim text.toList)
  if back ≠ value then throw (.unavailable (.changed p.text value back)) else pure ()

/-- Tries to remove a group. Nothing to remove is success. -/
def tryRemove (p : Path) : Action Host Bool :=
  Action.onFault (do Host.removeDirectory p; return true) fun fault =>
    return fault.code == OsFault.noEntry

/-- Removes a group in at most so many attempts, with a pause between them: the kernel may still be
clearing away its last process. The answer says whether the group is gone. -/
def removeGroupIn (p : Path) (delay : Figure) : Nat → Action Host Bool
  | 0 => return false
  | attempts + 1 => do
    if ← tryRemove p then return true
    else if attempts = 0 then return false
    else
      Host.nap delay
      removeGroupIn p delay attempts

/-- The pause between two attempts to remove a group: a tenth of a second. -/
def removalDelay : Figure := .binary (.ofRatio false 1 10)

/-- The number of attempts to remove a group. -/
def removalAttempts : Int := 5

/-- Removes a group. -/
def removeGroup (p : Path) (attempts : Int := removalAttempts) (delay : Figure := removalDelay) :
    Action Host Bool :=
  removeGroupIn p delay attempts.toNat

/-- The path of the unified hierarchy in a line of the kernel's list of groups. -/
def unifiedEntry? (line : List Char) : Option String :=
  match line.dropWhile (· ≠ ':') with
  | [] => none
  | _ :: rest =>
    match rest.dropWhile (· ≠ ':') with
    | [] => none
    | _ :: path =>
      if line.takeWhile (· ≠ ':') = ['0'] then
        some (String.ofList (Text.trimLeft (· = '/') (Text.trim path)))
      else none

/-- The group of a process in the unified hierarchy. -/
def groupOf (processId : String) (processRoot mount : Path) : Action Host Path := do
  let file := (processRoot.child processId).child "cgroup"
  let text ← Action.onFault (Host.readText file) fun fault =>
    throw (.unavailable (.unreadable file.text fault))
  match (Text.splitLines text.toList).findSome? unifiedEntry? with
  | some path => return mount.child path
  | none => throw (.unavailable (.noGroupEntry file.text))

/-- The group of this process. -/
def ownGroup (processRoot mount : Path) : Action Host Path := do
  groupOf (toString (← get).processId) processRoot mount

end MemoryLimit
