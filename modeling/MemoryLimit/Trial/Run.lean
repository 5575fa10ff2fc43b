import MemoryLimit.Text.Utf8
import MemoryLimit.Trial.Accounting
import MemoryLimit.Trial.Child

/-!
# Runs under a memory limit

A run makes a leaf group, starts a helper that enters the group and becomes the command, waits for it,
makes its record, and removes the group, whatever happens in between. The helper reports its own
faults on a pipe and never by its exit code, so every exit code of the command counts.

## Main definitions

* `Command` — what is run.
* `helperCommand` — the words of the helper for a command.
* `launch`, `await` — the start of a command and its end.
* `run` — one run.
-/
namespace MemoryLimit

/-- What is run: its words, its whole environment, the directory it runs in and leaves its output in,
and how long it may take. -/
structure Command where
  words : List String
  environment : List (String × String) := []
  directory : Option Path := none
  timeout : Option Binary64 := none
deriving DecidableEq, Repr, Inhabited

/-- The exit code of a run that took too long. -/
def timeoutCode : Int := 124

/-- The words that tell the helper the number of its status pipe. -/
def statusWords : Option Int → List String
  | some descriptor => ["--status-fd", integerText descriptor]
  | none => []

/-- The words of the helper: its own, the number of the status pipe if there is one, the group, and the
words of the command. -/
def helperCommand (settings : Settings) (interpreter : String) (command : Command) (leaf : Leaf)
    (status : Option Int) : List String :=
  settings.helperWords interpreter ++ statusWords status ++ [leaf.path.text] ++ command.words

/-- What the helper wrote on the status pipe: the stage at which it failed, and the description. -/
def readStatus (text : String) : String × String :=
  let s := text.toList
  let stage := s.takeWhile (· ≠ ':')
  let rest := (s.dropWhile (· ≠ ':')).drop 1
  let description := (rest.dropWhile (· ≠ ':')).drop 1
  (String.ofList stage, String.ofList (if description.isEmpty then rest else description))

/-- The failure that a status reports. -/
def statusFault (leaf : Leaf) (command : Command) (status : String) : SpawnFault :=
  let (stage, detail) := readStatus status
  if stage = "attach" then .notAttached leaf.path.text detail
  else .notExecuted (command.words.headD "") detail

/-- Has the kernel kill everything in the leaf, if it offers that. Its refusal is reported. -/
def killLeaf : Leaf.Step Unit := do
  let leaf ← Leaf.self
  tryCatch Leaf.kill fun
    | .unavailable cause =>
      Leaf.onHost (Host.report (.groupKillFailed leaf.path.text cause.message))
    | failure => throw failure

/-- Kills the process group. That it is gone already does no harm. -/
def killGroup : Leaf.Step Unit :=
  Action.onFault (Leaf.onHost Host.killGroup) fun fault =>
    if fault.code = OsFault.noProcess then pure () else throw (.os fault)

/-- Kills everything in the leaf and in the process group, and waits until it is gone. -/
def killAll : Leaf.Step Unit := do
  let leaf ← Leaf.self
  killLeaf
  killGroup
  let _ ← Leaf.onHost (Host.wait leaf.path none)

/-- Waits for the command. A command that takes too long is killed; so is one whose wait fails. -/
def await (timeout : Option Binary64) : Leaf.Step Int := do
  let leaf ← Leaf.self
  let outcome ← tryCatch (Leaf.onHost (Host.wait leaf.path timeout)) fun failure => do
    killAll
    throw failure
  match outcome with
  | .exited code => return code
  | .expired =>
    Leaf.onHost (Host.report (.trialTimeout Host.childId timeout))
    killAll
    return timeoutCode

/-- The files that the output of a command goes to. They are emptied first. -/
def openOutput (directory : Path) : Action Host (Path × Path) := do
  Host.makeDirectories directory
  let output := directory.child "stdout.log"
  let errors := directory.child "stderr.log"
  Host.placeFile output .empty
  Host.placeFile errors .empty
  return (output, errors)

/-- Starts the helper. -/
def launchHelper (launch : Launch) (leaf : Leaf) (output : Option (Path × Path)) : Action Host Unit :=
  Action.onFault (Host.start launch leaf.path (output.map (·.1)) (output.map (·.2))) fun fault =>
    throw (.spawn (.notStarted (launch.words.headD "") fault))

/-- Starts a command in a leaf. The answer is the reading of the clock before the start. -/
def launch (settings : Settings) (command : Command) (leaf : Leaf) : Action Host Binary64 := do
  let host ← get
  let reports := settings.helperReports
  let pipe := if reports then some ((host.freeDescriptor : Int) + 1) else none
  let output ← command.directory.mapM openOutput
  Host.report (.trialStarted leaf.limit leaf.path.text command.words)
  let start ← Host.tick
  let launch : Launch :=
    { words := helperCommand settings host.interpreter command leaf pipe
      environment := command.environment
      directory := command.directory.map Path.text
      ownSession := true
      statusPipe := reports }
  launchHelper launch leaf output
  return start

/-- What the helper wrote on the status pipe, if there is one. -/
def statusOf (settings : Settings) (h : Host) : String :=
  if settings.helperReports then Text.readLossy h.child.status else ""

/-- Runs a command in a leaf: its record, and what the helper wrote on the status pipe. -/
def runIn (settings : Settings) (command : Command) : Leaf.Step (Usage × String) := do
  let leaf ← Leaf.self
  let start ← Leaf.onHost (launch settings command leaf)
  let code ← await (command.timeout.or settings.timeout)
  let status := statusOf settings (← get).1
  let usage ← Leaf.onHost (collect leaf start code)
  return (usage, status)

/-- Runs a command under a memory limit. -/
def run (settings : Settings) (command : Command) (limit : Limit) : Action Host Usage := do
  if command.words.isEmpty then throw (.invalid .emptyCommand)
  else
    let leaf ← Leaf.create settings limit
    let ((usage, status), _) ← Action.withSecond leaf
      (Action.thenAlways (runIn settings command) Leaf.destroy)
    if status = "" then
      Host.report (.trialFinished leaf.limit usage.exitCode)
      return usage
    else throw (.spawn (statusFault leaf command status))

end MemoryLimit
