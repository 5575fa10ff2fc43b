import MemoryLimit.CommandLine.Request
import MemoryLimit.LimitSearch
import MemoryLimit.Settings.Sources
import MemoryLimit.Usage.File

/-!
# The program

The program reads its command line and its settings and then runs a command once, or searches the
smallest limit that it survives. Only results go to the standard output; messages go to the standard
error output. What the user can do something about is reported and ends the program with the exit
code one; a misused command line ends it with two.

## Main definitions

* `Executor` — how a command is run under a limit.
* `groupExecutor` — runs it in a group of its own.
* `program` — the program, for an executor.
-/
namespace MemoryLimit

/-- How a command is run under a limit. An executor may keep a state of its own beside the host. -/
abbrev Executor (τ : Type) := Settings → Command → Int → Action (Host × τ) Usage

/-- Runs commands in groups of their own. -/
def groupExecutor : Executor Unit :=
  fun settings command limit => Action.onFirst (run settings command (.bytes limit))

/-- The exit code of a program whose work is done. -/
def doneCode : Nat := 0

/-- The exit code of a program that reports a failure. -/
def failedCode : Nat := 1

/-- The exit code of a program whose command line is misused. -/
def misusedCode : Nat := 2

/-- A usage record as JSON. -/
def Usage.json (u : Usage) : Json :=
  .object
    [("exit_code", .integer u.exitCode), ("cpu_usage_seconds", .string u.cpuSeconds.text),
      ("wall_seconds", .string u.wallSeconds.text), ("mem_limit_bytes", .integer u.limit)]

namespace Program

variable {τ : Type}

/-- Writes a line to the standard output. Integers beyond the length of numerals are not written. -/
def print (line : Except NumeralError String) : Action (Host × τ) Unit :=
  match line with
  | .ok text => Action.onFirst (Host.print text)
  | .error fault => throw (.invalid (.numeral fault))

/-- Reports an event. A message that would be written must have no integer beyond the length of
numerals. -/
def report (event : Event) : Action (Host × τ) Unit := do
  let message := event.message
  if message.passes (← get).1.threshold && !message.isWritable then
    throw (.invalid (.numeral .tooLongToWrite))
  Action.onFirst (Host.report event)

/-- Ends with a misuse. -/
def misuse (program : String) (fault : UsageFault) : Action (Host × τ) Nat := do
  Action.onFirst (Host.complain (misuseLine program fault))
  return misusedCode

/-- The bounds of a search: those that are asked for, or else those of the settings. -/
def bounds (settings : Settings) (task : SearchTask) : Int × Int :=
  (task.low.getD settings.lowBytes, task.high.getD settings.highBytes)

/-- How the trials of a command are run, and events reported. -/
def bench (execute : Executor τ) (settings : Settings) (command : Command) : Bench (Host × τ) where
  run := execute settings command
  report := report

/-- Searches the smallest limit that a command survives, and prints it. The history is written before
that. -/
def searchFor (execute : Executor τ) (settings : Settings) (command : Command)
    (task : SearchTask) : Action (Host × τ) Unit := do
  let history ← settings.historyFile.mapM fun path => Action.onFirst (History.load path)
  let (low, high) := bounds settings task
  let interval ← Interval.ofFigures (.integer low) (.integer high)
  let (finding, history) ← findLimit (bench execute settings command) settings history interval
    task.workload task.iterations
  if let (some history, some path) := (history, settings.historyFile) then
    Action.onFirst (history.save path)
  print (writeInteger finding.boundary)

/-- Runs a command once, and prints its usage. -/
def runOnce (execute : Executor τ) (settings : Settings) (command : Command) (task : TrialTask) :
    Action (Host × τ) Unit := do
  let usage ← execute settings command task.limit
  print (usage.json.write)

/-- Carries out a task. -/
def carryOut (execute : Executor τ) (settings : Settings) (command : Command) :
    Task → Action (Host × τ) Unit
  | .search task => searchFor execute settings command task
  | .trial task => runOnce execute settings command task

/-- Why a request that was understood is refused nevertheless, if it is. -/
def refusal? (settings : Settings) (command : Command) (task : Task) :
    Except Failure (Option UsageFault) :=
  if command.words.isEmpty then .ok (some .missingCommand)
  else
    match task with
    | .trial _ => .ok none
    | .search task =>
      let (low, high) := bounds settings task
      if low ≤ high then .ok none
      else
        match writeInteger low, writeInteger high with
        | .ok _, .ok _ => .ok (some (.reversedBounds low high))
        | .error fault, _ => .error (.invalid (.numeral fault))
        | _, .error fault => .error (.invalid (.numeral fault))

/-- Reports a failure that the user can do something about; other failures pass. -/
def reportFailure (failure : Failure) : Action (Host × τ) Nat := do
  match failure.kindName? with
  | none => throw failure
  | some kind =>
    report (.failed failure.message kind)
    Action.onFirst (Host.complain (Request.program ++ ": " ++ failure.message))
    return failedCode

/-- Answers a request. -/
def answer (execute : Executor τ) (request : Request) : Action (Host × τ) Nat := do
  let settings ← Action.onFirst (Settings.load request.document)
  modify fun (host, own) => ({ host with threshold := thresholdOf settings.logLevel }, own)
  let task := request.arguments.task
  let command := request.arguments.command (← get).1.environment
  match ← refusal? settings command task with
  | some fault => misuse Request.program fault
  | none =>
    tryCatch
      (do
        carryOut execute settings command task
        return doneCode)
      reportFailure

/-- Responds to a command line as it was understood. -/
def respond (execute : Executor τ) : Except Stop Request → Action (Host × τ) Nat
  | .ok request => answer execute request
  | .error .help => return doneCode
  | .error (.misuse name fault) => misuse name fault
  | .error (.failure failure) => throw failure

end Program

/-- The program: it reads its command line, answers the request, and ends with an exit code. -/
def program {τ : Type} (execute : Executor τ) (words : List String) : Action (Host × τ) Nat :=
  Program.respond execute (Request.read words)

end MemoryLimit
