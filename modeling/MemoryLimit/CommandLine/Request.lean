import MemoryLimit.CommandLine.Binding
import MemoryLimit.CommandLine.Grammar
import MemoryLimit.Trial.Run

/-!
# What the program is asked to do

The program runs a command once under a memory limit, or searches the smallest limit that it survives.

## Main definitions

* `Arguments` — the command, its surroundings, and the task.
* `SearchTask`, `TrialTask` — the two tasks.
* `Request` — what the program is asked to do.
* `Request.read` — reads a request from a command line.
-/
namespace MemoryLimit

open CommandLine

/-- A command and its surroundings, and what is to be done with it. -/
structure Arguments (τ : Type) where
  /-- The command begins with an empty environment. -/
  cleanEnvironment : Bool := false
  /-- Variables that are added to the environment. -/
  bindings : List (String × String) := []
  /-- The directory that the command runs in. -/
  directory : Option Path := none
  /-- How many seconds the command may take. -/
  timeout : Option Binary64 := none
  words : List String := []
  task : τ

/-- A search: its bounds, the number of its iterations, and the name of the workload. -/
structure SearchTask where
  low : Option Int := none
  high : Option Int := none
  iterations : Option Int := none
  workload : Option RawText := none
deriving DecidableEq, Repr

/-- A single run under a limit. -/
structure TrialTask where
  limit : Int := 0
deriving DecidableEq, Repr

/-- What is to be done with a command. -/
inductive Task where
  | search (task : SearchTask)
  | trial (task : TrialTask)
deriving DecidableEq, Repr

/-- What the program is asked to do, and the document with its settings, if one is named. -/
structure Request where
  document : Option Path := none
  arguments : Arguments Task := { task := .search {} }

/-- The size that an option is given. A text that is no size is refused. -/
def sizeValue (text : String) : Except Refusal Int :=
  match readSize text with
  | .ok n => .ok n
  | .error (.malformed shown) => .error (.complaint (.refused (SizeError.malformed shown).message))
  | .error fault => .error (.failure (.size fault))

/-- The variable that an option is given. -/
def bindingValue (text : String) : Except Refusal (String × String) :=
  match readBinding? text with
  | some binding => .ok binding
  | none => .error (.complaint (.refused (bindingMessage text)))

/-- The floating point number that an option is given. -/
def floatValue (text : String) : Except Refusal Binary64 :=
  match readFloat? text with
  | some x => .ok x
  | none => .error (.complaint (.invalidValue "float" text))

namespace Arguments

variable {τ υ : Type}

/-- The arguments with another task. -/
def withTask (a : Arguments τ) (task : υ) : Arguments υ :=
  { cleanEnvironment := a.cleanEnvironment
    bindings := a.bindings
    directory := a.directory
    timeout := a.timeout
    words := a.words
    task := task }

/-- An option with a value that changes the task. -/
def taskOption (spelling : String) (set : String → τ → Except Refusal τ) : Opt (Arguments τ) :=
  { spellings := [spelling]
    effect := .value fun text a => do return { a with task := ← set text a.task } }

/-- The options of every task. -/
def options : List (Opt (Arguments τ)) :=
  [helpOption,
    { spellings := ["--clean-env"], effect := .flag fun a => { a with cleanEnvironment := true } },
    { spellings := ["--env"]
      effect := .value fun text a => do
        return { a with bindings := a.bindings ++ [← bindingValue text] } },
    { spellings := ["--workdir"]
      effect := .value fun text a => .ok { a with directory := some (.read text) } },
    { spellings := ["--timeout"]
      effect := .value fun text a => do return { a with timeout := some (← floatValue text) } }]

/-- The command, which takes the rest of the command line. -/
def operands : List (Operand (Arguments τ)) :=
  [⟨"cmd", .rest, fun words a => .ok ({ a with words := words }, [])⟩]

/-- An environment with a variable, in its old place if it has one. -/
def bind (environment : List (String × String)) (binding : String × String) :
    List (String × String) :=
  if environment.any (·.1 = binding.1) then
    environment.map fun old => if old.1 = binding.1 then binding else old
  else environment ++ [binding]

/-- The command that the arguments describe, for the environment of the program. -/
def command (a : Arguments τ) (environment : List (String × String)) : Command :=
  { words := withoutDivider a.words
    environment := a.bindings.foldl bind (if a.cleanEnvironment then [] else environment)
    directory := a.directory
    timeout := a.timeout }

end Arguments

namespace Request

/-- The name of the program. -/
def program : String := "memprobe"

/-- The command line of a search. -/
def searchGrammar : Grammar (Arguments SearchTask) where
  program := program ++ " bisect"
  options := Arguments.options ++
    [Arguments.taskOption "--low" fun text t => do return { t with low := some (← sizeValue text) },
      Arguments.taskOption "--high" fun text t => do return { t with high := some (← sizeValue text) },
      Arguments.taskOption "--iterations" fun text t => do
        return { t with iterations := some (← integerValue text) },
      Arguments.taskOption "--workload-id" fun text t => .ok { t with workload := some (.ofString text) }]
  operands := Arguments.operands

/-- The command line of a single run. -/
def trialGrammar : Grammar (Arguments TrialTask) where
  program := program ++ " run"
  options := Arguments.options ++
    [{ Arguments.taskOption "--limit" fun text _ => do return { limit := ← sizeValue text } with
        required := true }]
  operands := Arguments.operands

/-- Reads the arguments of a task, and wraps the task up. The answer has the words that are left
over. -/
def readTask {τ : Type} (grammar : Grammar (Arguments τ)) (wrap : τ → Task) (initial : τ)
    (words : List String) (r : Request) : Except Stop (Request × List String) := do
  let (arguments, extras) ← grammar.readKnown words { task := initial }
  return ({ r with arguments := arguments.withTask (wrap arguments.task) }, extras)

/-- The names of the tasks. -/
def actions : List String := ["bisect", "run"]

/-- Reads the name of a task and its arguments. -/
def readAction (words : List String) (r : Request) : Except Stop (Request × List String) :=
  match words with
  | "bisect" :: rest => readTask searchGrammar .search {} rest r
  | "run" :: rest => readTask trialGrammar .trial {} rest r
  | words =>
    .error (.misuse program (.argument "action" (.invalidChoice (words.headD "") actions)))

/-- The command line of the program. -/
def grammar : Grammar Request where
  program := program
  options :=
    [helpOption,
      { spellings := ["--config"]
        effect := .value fun text r => .ok { r with document := some (.read text) } }]
  operands := [⟨"action", .subcommand, readAction⟩]

/-- Reads a request from a command line. -/
def read (words : List String) : Except Stop Request :=
  grammar.read words {}

end Request

end MemoryLimit
