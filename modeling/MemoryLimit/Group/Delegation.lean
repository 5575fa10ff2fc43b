import MemoryLimit.Group.ControlFile
import MemoryLimit.Settings.Basic

/-!
# The delegated subtree

The session of a user has a subtree of groups that the user may write to. A process can be moved into
a group below it only if it lives below it already, so a process outside of it is warned of.

## Main definitions

* `ensureUnified` — refuses a mount that is no unified hierarchy.
* `delegatedRoot` — the subtree that we may write to.
* `enableMemory` — lets the children of a group have memory limits.
-/
namespace MemoryLimit

/-- Refuses a mount that is no unified hierarchy. -/
def ensureUnified (mount : Path) : Action Host Unit := do
  let controllers := mount.child ControlFile.controllers
  if ← Host.pathExists controllers then pure ()
  else throw (.unavailable (.notUnified mount.text controllers.text))

/-- The subtree of a user's session. -/
def sessionRoot (mount : Path) (userId : Int) : Path :=
  let user := integerText userId
  ((mount.child "user.slice").child ("user-" ++ user ++ ".slice")).child ("user@" ++ user ++ ".service")

/-- Reports where this process lives, if that is not below a subtree or cannot be found out. -/
def reportOwnGroup (settings : Settings) (root : Path) : Action Host Unit := do
  let own ← tryCatch (some <$> ownGroup settings.processRoot settings.groupMount) fun
    | .unavailable cause => do
      Host.report (.ownGroupUnknown cause.message)
      return none
    | failure => throw failure
  match own with
  | some group =>
    if group.isWithin root then pure ()
    else Host.report (.outsideDelegatedRoot group.text root.text)
  | none => pure ()

/-- The subtree that we may write to. It exists; where this process lives is reported. -/
def delegatedRoot (settings : Settings) (userId : Option Int := none) : Action Host Path := do
  ensureUnified settings.groupMount
  let ownUser : Int := (← get).userId
  let root := settings.delegatedRoot.getD
    (sessionRoot settings.groupMount (userId.getD ownUser))
  if ← Host.isDirectory root then
    reportOwnGroup settings root
    return root
  else throw (.unavailable (.noDelegatedRoot root.text))

/-- The names in a list, each once and in order. -/
def sortedNames (names : List String) : List String :=
  names.eraseDups.mergeSort fun a b => !(b < a)

/-- Lets the children of a group have memory limits. A group that lists its controllers must list the
memory controller. -/
def enableMemory (node : Path) : Action Host Unit := do
  let file := node.child ControlFile.controllers
  if ← Host.pathExists file then
    let text ← Action.onFault (Host.readText file) fun fault =>
      throw (.unavailable (.unreadable file.text fault))
    let names := (Text.words text.toList).map String.ofList
    if !names.contains "memory" then
      throw (.unavailable (.notDelegated node.text (sortedNames names)))
  writeValue (node.child ControlFile.subtreeControl) "+memory"

end MemoryLimit
