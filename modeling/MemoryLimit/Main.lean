import MemoryLimit.Program

/-!
# The command line

The program, on what it is shown of a machine: the variables that configure it, its settings document
and its history file. Groups and processes are out of reach here, so a search is answered as far as no
run is needed, and a run is reported as unavailable.

## Main definitions

* `Outside.host` — what the program is shown.
* `Outside.keep` — writes back what the program changed.
* `main` — the program.
-/
namespace MemoryLimit.Outside

/-- Runs no command. -/
def executor : Executor Unit :=
  fun _ _ _ => throw (.unavailable (.reported "commands cannot be run from here"))

/-- The variables that configure the program, as far as they are set. -/
def environment : IO (List (String × String)) :=
  (Settings.documentVariable :: Settings.names.map fun name => (variableStart ++ name).toUpper).filterMapM
    fun name => do return (← IO.getEnv name).map (name, ·)

/-- Shows the program a file, if it is there. -/
def showFile (host : Host) (p : Path) : IO Host := do
  try
    let bytes ← IO.FS.readBinFile p.text
    return { host with tree := host.tree.plant (Host.normalize host.directory p).names (.file bytes) }
  catch _ => return host

/-- The settings document that a command line asks for. -/
def documentAsked (words : List String) : Option Path :=
  match Request.read words with
  | .ok request => request.document
  | .error _ => none

/-- The place that an absolute path leads to. -/
def placeOf (p : Path) : RealPlace :=
  RealPlace.root.follow p.names p.isName

/-- The text of a place. -/
def textOf (place : Place) : String :=
  "/" ++ String.intercalate "/" place

/-- What the program is shown for a command line. -/
def host (words : List String) : IO Host := do
  let directory := placeOf (.read (← IO.currentDir).toString)
  let environment ← environment
  let bare : Host :=
    { tree := Tree.ensureDirectories {} directory
      directory := directory
      environment := environment }
  let asked := documentAsked words
  let host ← showFile bare (asked.getD (Settings.documentPath environment))
  match ((Settings.load asked).runOn host).1 with
  | .ok { historyFile := some path, .. } => showFile host path
  | _ => return host

/-- Writes back the files that the program changed. -/
def keep (old new : Tree) : IO Unit :=
  for (place, node) in new.entries do
    if let .file bytes := node then
      if old.get? place != some node then
        IO.FS.createDirAll (textOf place.dropLast)
        IO.FS.writeBinFile (textOf place) bytes

end MemoryLimit.Outside

open MemoryLimit in
/-- Runs the program, writes what it wrote, and ends with its exit code. -/
def main (words : List String) : IO UInt32 := do
  let before ← Outside.host words
  let (outcome, after, _) := (program Outside.executor words).runOn (before, ())
  Outside.keep before.tree after.tree
  after.outputLines.forM IO.println
  (after.messages.map Message.line ++ after.errorLines).forM IO.eprintln
  match outcome with
  | .ok code => return code.toUInt32
  | .error failure =>
    IO.eprintln failure.message
    return 1
