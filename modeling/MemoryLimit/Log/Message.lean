import MemoryLimit.Json.Value

/-!
# Log messages

A message has a level, the name of an event, and named values. It is written as one line of JSON, and
only if its level is not below the threshold of the log.

## Main definitions

* `Level` — how much a message matters.
* `Message` — what is logged.
* `Message.line` — a message as it is written.
* `thresholdOf` — the threshold that a name stands for.
-/
namespace MemoryLimit

/-- How much a message matters. -/
inductive Level where
  | debug
  | info
  | warning
  | error
  | critical
deriving DecidableEq, Repr, Inhabited

/-- The rank of a level. -/
def Level.rank : Level → Nat
  | debug => 10
  | info => 20
  | warning => 30
  | error => 40
  | critical => 50

/-- The name of a level, as messages show it. -/
def Level.name : Level → String
  | debug => "debug"
  | info => "info"
  | warning => "warning"
  | error => "error"
  | critical => "critical"

/-- A logged event: its level, its name and its values. -/
structure Message where
  level : Level
  event : String
  fields : List (String × Json)
deriving Repr, Inhabited

namespace Message

/-- Members with a new value for a name, in its place if there is one. -/
def put (name : String) (value : Json) (members : List (String × Json)) : List (String × Json) :=
  if members.any (·.1 = name) then
    members.map fun member => if member.1 = name then (name, value) else member
  else members ++ [(name, value)]

/-- The members of a message, as they are written. The event and the level hide fields of these
names. -/
def members (m : Message) : List (String × Json) :=
  put "level" (.string m.level.name) (put "event" (.string m.event) m.fields)

/-- A message as it is written. -/
def line (m : Message) : String :=
  (Json.object m.members).render

/-- Whether a message is written by a log of the given threshold. -/
def passes (threshold : Nat) (m : Message) : Bool :=
  threshold ≤ m.level.rank

/-- Whether all integers of a message can be written. -/
def isWritable (m : Message) : Bool :=
  (Json.object m.fields).isWritable

end Message

/-- The names of the thresholds. -/
def thresholds : List (String × Nat) :=
  [("CRITICAL", 50), ("FATAL", 50), ("ERROR", 40), ("WARN", 30), ("WARNING", 30), ("INFO", 20),
    ("DEBUG", 10), ("NOTSET", 0)]

/-- The upper case of a letter, where that is made of ASCII letters; another character stays. -/
def upperCase (c : Char) : List Char :=
  match c.toNat with
  | 0xdf => ['S', 'S']
  | 0x131 => ['I']
  | 0x17f => ['S']
  | 0xfb00 => ['F', 'F']
  | 0xfb01 => ['F', 'I']
  | 0xfb02 => ['F', 'L']
  | 0xfb03 => ['F', 'F', 'I']
  | 0xfb04 => ['F', 'F', 'L']
  | 0xfb05 => ['S', 'T']
  | 0xfb06 => ['S', 'T']
  | _ => [c.toUpper]

/-- The threshold that a name stands for, in any case; information, if it stands for none. -/
def thresholdOf (name : String) : Nat :=
  let upper := String.ofList (name.toList.flatMap upperCase)
  match thresholds.find? (·.1 = upper) with
  | some (_, rank) => rank
  | none => Level.info.rank

end MemoryLimit
