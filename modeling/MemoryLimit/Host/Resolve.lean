import MemoryLimit.Host.Fault
import MemoryLimit.Host.Tree
import MemoryLimit.Path

/-!
# Calls on a file tree

The calls that read and change a file tree, as functions on the tree. A call that fails gives the
number of its fault and changes nothing.

## Main definitions

* `Tree.locate` — the place that a path leads to, seen from a working directory.
* `Tree.readFile`, `Tree.writeFile`, `Tree.makeDirectory`, `Tree.removeDirectory`, `Tree.createFile`,
  `Tree.moveFile`, `Tree.unlink` — the calls.
-/
namespace MemoryLimit.Tree

/-- The greatest number of bytes in a name. -/
def maxNameBytes : Nat := 255

/-- The number of bytes from which on a path is too long. -/
def maxPathBytes : Nat := 4096

/-- One step of a path: from a directory to one of its entries, or to the directory above. -/
def step (t : Tree) (place : Place) (name : String) : Except Int Place :=
  match t.get? place with
  | none => .error OsFault.noEntry
  | some (.file _) => .error OsFault.notDirectory
  | some .directory =>
    if name = ".." then .ok place.dropLast
    else if maxNameBytes < name.utf8ByteSize then .error OsFault.nameTooLong
    else .ok (place ++ [name])

/-- The place that a path leads to. There need be nothing at it, but there are directories above. -/
def locate (t : Tree) (directory : Place) (p : Path) : Except Int Place :=
  if maxPathBytes ≤ p.text.utf8ByteSize then .error OsFault.nameTooLong
  else p.names.foldlM t.step (if p.isAbsolute then [] else directory)

/-- The node that a path leads to. -/
def find (t : Tree) (directory : Place) (p : Path) : Except Int Node := do
  match t.get? (← t.locate directory p) with
  | some node => return node
  | none => throw OsFault.noEntry

/-- Whether the last step of a path leads to an entry of a directory. -/
def endsInName (p : Path) : Bool :=
  !p.names.isEmpty && p.name ≠ ".."

/-- The bytes of a file. -/
def readFile (t : Tree) (directory : Place) (p : Path) : Except Int ByteArray := do
  match ← t.find directory p with
  | .file bytes => return bytes
  | .directory => throw OsFault.isDirectory

/-- Replaces the bytes of a file, or makes one. -/
def writeFile (t : Tree) (directory : Place) (p : Path) (bytes : ByteArray) : Except Int Tree := do
  let place ← t.locate directory p
  if t.isDirectory place then throw OsFault.isDirectory
  else return t.insert place (.file bytes)

/-- Makes a directory where there is nothing. -/
def makeDirectory (t : Tree) (directory : Place) (p : Path) : Except Int Tree := do
  let place ← t.locate directory p
  if endsInName p && (t.get? place).isNone then return t.insert place .directory
  else throw OsFault.alreadyThere

/-- Makes an empty file where there is nothing. -/
def createFile (t : Tree) (directory : Place) (p : Path) : Except Int Tree := do
  let place ← t.locate directory p
  if endsInName p && (t.get? place).isNone then return t.insert place (.file .empty)
  else throw OsFault.alreadyThere

/-- Removes a directory without entries. If interface files vanish, the files in a directory that has
no directories in it do not count. -/
def removeDirectory (t : Tree) (vanish : Bool) (directory : Place) (p : Path) : Except Int Tree := do
  let place ← t.locate directory p
  match t.get? place with
  | none => throw OsFault.noEntry
  | some (.file _) => throw OsFault.notDirectory
  | some .directory =>
    if p.names.isEmpty then throw OsFault.invalid
    else if p.name = ".." then throw OsFault.notEmpty
    else
      let rest := if vanish && !t.hasSubdirectory place then t.eraseFiles place else t
      if (rest.children place).isEmpty then return rest.erase place
      else throw OsFault.notEmpty

/-- Removes a file. -/
def unlink (t : Tree) (directory : Place) (p : Path) : Except Int Tree := do
  let place ← t.locate directory p
  match t.get? place with
  | none => throw OsFault.noEntry
  | some .directory => throw OsFault.isDirectory
  | some (.file _) => return t.erase place

/-- Moves a file, over another file if there is one. -/
def moveFile (t : Tree) (directory : Place) (source target : Path) : Except Int Tree := do
  let bytes ← t.readFile directory source
  let start ← t.locate directory source
  let place ← t.locate directory target
  if !endsInName target then throw OsFault.busy
  else if t.isDirectory place then throw OsFault.isDirectory
  else return (t.erase start).insert place (.file bytes)

end MemoryLimit.Tree
