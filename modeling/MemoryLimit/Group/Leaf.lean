import MemoryLimit.Group.Delegation

/-!
# Leaf groups

A leaf is a group with a name of its own that lives for one run under a memory limit. It is removed
once; after that nothing is written to it, even if a directory of its name exists again.

## Main definitions

* `Leaf` — a leaf group.
* `Limit` — a memory limit as a caller gives it.
* `Leaf.create` — a leaf with its limits written, or nothing.
* `Leaf.write`, `Leaf.kill`, `Leaf.destroy` — what is done with a leaf.
-/
namespace MemoryLimit

/-- A leaf group: its path, its limit in bytes, and whether it was removed. -/
structure Leaf where
  path : Path
  limit : Int
  destroyed : Bool := false
deriving DecidableEq, Repr, Inhabited

/-- A memory limit as a caller gives it: an integer, or another value as messages show it. -/
inductive Limit where
  | bytes (value : Int)
  | other (shown : String)
deriving DecidableEq, Repr

/-- The number of bytes of a limit. -/
def Limit.check : Limit → Except Failure Nat
  | .bytes value =>
    if 0 ≤ value then .ok value.toNat
    else
      match writeInteger value with
      | .ok shown => .error (.invalid (.memoryLimit shown))
      | .error fault => .error (.invalid (.numeral fault))
  | .other shown => .error (.invalid (.memoryLimit shown))

namespace Leaf

/-- What is done with a leaf may change the leaf and the host. -/
abbrev Step (α : Type) := Action (Host × Leaf) α

/-- An action on the host alone. -/
def onHost {α : Type} (action : Action Host α) : Step α :=
  Action.onFirst action

/-- The leaf. -/
def self : Step Leaf := do
  return (← get).2

/-- How a leaf is shown. -/
def shown (leaf : Leaf) : String :=
  "CgroupHandle(path=" ++ Text.quoted leaf.path.text ++ ", memory_limit_bytes=" ++
    integerText leaf.limit ++ ")"

/-- Writes a value to a control file of the leaf; if `check` is set, it must be read back. A removed
leaf is not written to. -/
def writeText (name value : String) (check : Bool := false) : Step Unit := do
  let leaf ← self
  if leaf.destroyed then throw (.unavailable (.destroyed leaf.path.text))
  else
    let file := leaf.path.child name
    onHost (if check then writeThenCheck file value else writeValue file value)

/-- Writes an integer to a control file of the leaf. -/
def writeNumber (name : String) (value : Int) (check : Bool := false) : Step Unit := do
  let leaf ← self
  if leaf.destroyed then throw (.unavailable (.destroyed leaf.path.text))
  else
    match writeInteger value with
    | .ok text => writeText name text check
    | .error fault => throw (.invalid (.numeral fault))

/-- Kills all processes of the leaf, if the kernel offers that. -/
def kill : Step Unit := do
  let leaf ← self
  if ← onHost (Host.pathExists (leaf.path.child ControlFile.kill)) then
    writeNumber ControlFile.kill 1

/-- Reports what became of the removal of a leaf. -/
def removeAndReport (path : Path) : Action Host Unit :=
  Action.onFault
    (do
      if ← removeGroup path then Host.report (.groupDestroyed path.text)
      else Host.report (.groupDestroyFailed path.text none))
    fun fault => Host.report (.groupDestroyFailed path.text (some fault.text))

/-- Removes the leaf, the first time it is asked to. A group that stays behind is harmless, because the
next one has a name of its own. -/
def destroy : Step Unit := do
  let leaf ← self
  if leaf.destroyed then pure ()
  else
    modify fun (h, leaf) => (h, { leaf with destroyed := true })
    onHost (removeAndReport leaf.path)

/-- Writes the limits of a fresh leaf, and removes the leaf if they are refused. -/
def setLimits (limit : Nat) : Step Unit :=
  tryCatch
    (do
      writeNumber ControlFile.memoryMax limit
      writeNumber ControlFile.swapMax 0 true)
    fun failure => do
      destroy
      throw failure

/-- The directory of our groups, ready to have groups with limits in it. -/
def prepareParent (settings : Settings) : Action Host Path := do
  let root ← delegatedRoot settings
  let parent := root.child settings.groupDirectory
  Action.onFault (Host.makeDirectory parent) fun fault =>
    throw (.unavailable (.uncreatable parent.text fault))
  enableMemory parent
  return parent

/-- A leaf with its limits written. If anything is refused, there is no leaf. -/
def create (settings : Settings) (limit : Limit) : Action Host Leaf := do
  let bytes ← limit.check
  let parent ← prepareParent settings
  let path ← Action.onFault (Host.makeFreshDirectory parent settings.groupDirectory) fun fault =>
    throw (.unavailable (.noLeaf parent.text fault))
  let ((), leaf) ← Action.withSecond (⟨path, bytes, false⟩ : Leaf) (setLimits bytes)
  Host.report (.groupCreated path.text bytes)
  return leaf

end Leaf

end MemoryLimit
