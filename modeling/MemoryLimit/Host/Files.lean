import MemoryLimit.Host.Basic
import MemoryLimit.Host.Resolve
import MemoryLimit.Text.Line

/-!
# Files of the host

Reading and changing the file tree of the host, disturbed by its schedule.

## Main definitions

* `Host.openText`, `Host.readText`, `Host.writeText` — a file as text; carriage returns are folded when
  it is read.
* `Host.pathExists`, `Host.isDirectory` — what is at a path.
* `Host.makeDirectory`, `Host.makeDirectories`, `Host.removeDirectory` — directories.
* `Host.makeFreshDirectory`, `Host.createFresh` — a directory or a file with a name of its own.
* `Host.replaceFile` — replaces a file as a whole, or leaves it as it was.
-/
namespace MemoryLimit.Host

/-- Refuses paths with the character that ends paths. -/
def checkPath (p : Path) : Action Host Unit :=
  if p.names.any fun name => name.toList.contains '\x00' then throw (.invalid .nullCharacter)
  else pure ()

/-- Looks something up in the file tree. -/
def lookUp {α : Type} (p : Path) (f : Tree → Place → Path → Except Int α) : Action Host α := do
  checkPath p
  let h ← get
  match f h.tree h.directory p with
  | .ok a => return a
  | .error code => throw (.os (.ofCode code (some p.text)))

/-- Changes the file tree. -/
def change (p : Path) (f : Tree → Place → Path → Except Int Tree) : Action Host Unit := do
  let tree ← lookUp p f
  modify fun h => { h with tree := tree }

/-- The text of bytes. -/
def decode (bytes : ByteArray) : Except Failure String :=
  match String.fromUTF8? bytes with
  | some text => .ok text
  | none => .error .undecodable

/-- The text of a file, with every line end of one or two carriage returns and line feeds as one line
feed. -/
def openText (p : Path) : Action Host String := do
  let text ← decode (← lookUp p Tree.readFile)
  return String.ofList (Text.foldReturns text.toList)

/-- The text of a file as `openText` has it, unless the schedule disturbs it. -/
def readText (p : Path) : Action Host String := do
  match ← disturb .read p with
  | some (.fail fault) => throw (.os fault)
  | some (.answer text) => return text
  | _ => openText p

/-- Replaces the text of a file, or makes one. -/
def writeText (p : Path) (text : String) : Action Host Unit := do
  match ← disturb .write p with
  | some (.fail fault) => throw (.os fault)
  | some .ignore => return ()
  | _ => change p fun t directory p => t.writeFile directory p text.toUTF8

/-- Whether a fault says no more than that there is nothing at the path. -/
def saysAbsent (fault : OsFault) : Bool :=
  fault.code == OsFault.noEntry || fault.code == OsFault.notDirectory

/-- The node at a path, if there is one. -/
def nodeAt? (p : Path) : Action Host (Option Node) :=
  tryCatch (some <$> lookUp p Tree.find) fun
    | .os fault => if saysAbsent fault then return none else throw (.os fault)
    | .invalid (.nullCharacter) => return none
    | failure => throw failure

/-- Whether there is something at a path. -/
def pathExists (p : Path) : Action Host Bool := do
  return (← nodeAt? p).isSome

/-- Whether there is a directory at a path. -/
def isDirectory (p : Path) : Action Host Bool := do
  return (← nodeAt? p) == some .directory

/-- Makes a directory; one that is there already is as good. -/
def makeDirectory (p : Path) : Action Host Unit := do
  pass .mkdir p
  Action.onFault (change p Tree.makeDirectory) fun fault => do
    if ← isDirectory p then pure () else throw (.os fault)

/-- Makes a directory and the directories above it, as far as they are missing. `above` is the number
of directories above that may be made. -/
def makeDirectoriesUpTo : Nat → Path → Action Host Unit
  | 0, p => makeDirectory p
  | above + 1, p => do
    pass .mkdir p
    Action.onFault (change p Tree.makeDirectory) fun fault => do
      if fault.code = OsFault.noEntry then
        if p.parent = p then throw (.os fault)
        else
          makeDirectoriesUpTo above p.parent
          makeDirectory p
      else if ← isDirectory p then pure ()
      else throw (.os fault)

/-- Makes a directory and the directories above it, as far as they are missing. -/
def makeDirectories (p : Path) : Action Host Unit :=
  makeDirectoriesUpTo (p.names.length + 1) p

/-- Removes a directory. -/
def removeDirectory (p : Path) : Action Host Unit := do
  pass .rmdir p
  let vanish := (← get).interfaceFilesVanish
  change p fun t directory p => t.removeDirectory vanish directory p

/-- The text of a count, with at least eight digits. -/
def freshSuffix (count : Nat) : String :=
  let digits := Text.natDigits count
  String.ofList (List.replicate (8 - digits.length) '0' ++ digits)

/-- Draws names until `make` succeeds at one that nothing has yet. -/
def tryFresh (make : Path → Action Host Unit) (parent : Path) (stem : String) :
    Nat → Action Host Path
  | 0 => throw (.os (.ofCode OsFault.alreadyThere))
  | fuel + 1 => do
    let count := (← get).freshNames + 1
    modify fun h => { h with freshNames := count }
    let p := Path.read (parent.appendName (stem ++ freshSuffix count))
    let made ← Action.onFault (do make p; return true) fun fault => do
      if fault.code = OsFault.alreadyThere then return false else throw (.os fault)
    if made then return p else tryFresh make parent stem fuel

/-- Draws names as long as there can be something at each of them. -/
def fresh (make : Path → Action Host Unit) (parent : Path) (stem : String) : Action Host Path := do
  tryFresh make parent stem ((← get).tree.entries.length + 1)

/-- Makes a directory with a name of its own, which begins with `stem`. -/
def makeFreshDirectory (parent : Path) (stem : String) : Action Host Path := do
  pass .mkdtemp .empty
  fresh (fun p => change p Tree.makeDirectory) parent stem

/-- A path without steps upwards, taken from the root. -/
def normalize (directory : RealPlace) (p : Path) : Path :=
  let start := if p.isAbsolute then .root else directory
  let place := start.follow p.names p.isName
  { slashes := max 1 p.slashes
    names := place.names
    slashes_le := Nat.max_le.2 ⟨by decide, p.slashes_le⟩
    isName := fun name hname => (place.isFileName name hname).toIsName }

/-- Makes an empty file next to a path, with a name of its own. -/
def createFresh (p : Path) : Action Host Path := do
  pass .mkstemp p
  let parent := normalize (← get).directory p.parent
  fresh (fun q => change q Tree.createFile) parent ("." ++ p.name ++ ".")

/-- The bytes of a text. -/
def encode (text : RawText) : Except Failure ByteArray :=
  text.encode.mapError .unencodable

/-- Writes the text of a file that was made for it. -/
def fill (p : Path) (text : RawText) : Action Host Unit := do
  let bytes ← encode text
  pass .fill p
  change p fun t directory p => t.writeFile directory p bytes

/-- Removes a file, if it is there. -/
def discard (p : Path) : Action Host Unit :=
  Action.onFault
    (do
      pass .unlink p
      change p Tree.unlink)
    fun fault => if fault.code = OsFault.noEntry then pure () else throw (.os fault)

/-- A file is gone, if it was there, and nobody is told. -/
def loseFile (p : Path) : Action Host Unit :=
  Action.onFault (change p Tree.unlink) fun _ => pure ()

/-- Moves a file to a path. A move that fails leaves it where it is, unless the file is lost. -/
def moveFile (source target : Path) : Action Host Unit := do
  match ← disturb .replace target with
  | some (.fail fault) => throw (.os fault)
  | some (.lose fault) =>
    loseFile source
    throw (.os fault)
  | _ => change target fun t directory target => t.moveFile directory source target

/-- Replaces a file as a whole: the bytes go to a file of their own, which then takes the place of the
target. If anything fails, that file is removed again. -/
def replaceFile (target : Path) (text : RawText) : Action Host Unit := do
  makeDirectories target.parent
  let temporary ← createFresh target
  tryCatch
    (do
      fill temporary text
      moveFile temporary target)
    fun failure => do
      discard temporary
      throw failure

end MemoryLimit.Host
