import MemoryLimit.Decimal.Context
import MemoryLimit.Decimal.Printer
import MemoryLimit.Decimal.Reader
import MemoryLimit.Host.Fault
import MemoryLimit.Numeral.Integer
import MemoryLimit.Size
import MemoryLimit.Text.Raw
import MemoryLimit.Yaml.Fault

/-!
# What can go wrong

Every way in which an operation of this library fails is a constructor here, with the values that its
message shows. The wording is in one place.

## Main definitions

* `Unavailable` — the group file system, or our rights in it, refuse to be used.
* `SpawnFault` — the command was not started.
* `AccountingFault` — the processor time of a group could not be read.
* `FormatFault` — a usage record cannot be written or read.
* `InvalidValue` — an argument out of its range.
* `Issue` — a setting with a value that it does not admit.
* `Failure` — all of them, and the failures without a cause of their own.
* `Failure.message` — the message of a failure.
-/
namespace MemoryLimit

open Text

/-- Why groups cannot be used. -/
inductive Unavailable where
  /-- An executor gave its own reason. -/
  | reported (text : String)
  /-- The mount has no list of controllers, so it is not a unified hierarchy. -/
  | notUnified (mount controllers : String)
  /-- The subtree that we may write to does not exist. -/
  | noDelegatedRoot (root : String)
  /-- The memory controller is not among the controllers of a group. -/
  | notDelegated (node : String) (controllers : List String)
  /-- The kernel lists no group of the unified hierarchy for a process. -/
  | noGroupEntry (file : String)
  /-- A control file cannot be read. -/
  | unreadable (file : String) (fault : OsFault)
  /-- The directory of our groups cannot be made. -/
  | uncreatable (directory : String) (fault : OsFault)
  /-- No fresh group can be made. -/
  | noLeaf (parent : String) (fault : OsFault)
  /-- A control file refuses a value. -/
  | writeRefused (file value : String) (fault : OsFault)
  /-- A control file cannot be read after it was written. -/
  | unreadableBack (file : String) (fault : OsFault)
  /-- A control file does not keep the value written to it. -/
  | changed (file value back : String)
  /-- The group was removed before. -/
  | destroyed (leaf : String)
deriving DecidableEq, Repr

/-- The message of an unavailable group. -/
def Unavailable.message : Unavailable → String
  | .reported text => text
  | .notUnified _ controllers => "cgroup v2 is required: " ++ controllers ++ " not found"
  | .noDelegatedRoot root =>
    "delegated cgroup root " ++ root ++
      " does not exist (not running under a systemd user session with delegation?)"
  | .notDelegated node controllers =>
    "memory controller not delegated to " ++ node ++ " (have: " ++ quotedList controllers ++ ")"
  | .noGroupEntry file => "no cgroup v2 entry in " ++ file
  | .unreadable file fault => "cannot read " ++ file ++ ": " ++ fault.description
  | .uncreatable directory fault => "cannot create " ++ directory ++ ": " ++ fault.description
  | .noLeaf parent fault => "cannot create leaf under " ++ parent ++ ": " ++ fault.description
  | .writeRefused file value fault =>
    "[cgroup] cannot write " ++ file ++ "='" ++ value ++ "': " ++ fault.description
  | .unreadableBack file fault => "[cgroup] cannot read back " ++ file ++ ": " ++ fault.description
  | .changed file value back =>
    "[cgroup] write " ++ file ++ "='" ++ value ++ "' but read-back='" ++ back ++ "'"
  | .destroyed leaf => leaf ++ " already destroyed"

/-- The path that an unavailable group is about. -/
def Unavailable.path? : Unavailable → Option String
  | .reported _ => none
  | .notUnified mount _ => some mount
  | .noDelegatedRoot root => some root
  | .notDelegated node _ => some node
  | .noGroupEntry file => some file
  | .unreadable file _ => some file
  | .uncreatable directory _ => some directory
  | .noLeaf parent _ => some parent
  | .writeRefused file _ _ => some file
  | .unreadableBack file _ => some file
  | .changed file _ _ => some file
  | .destroyed leaf => some leaf

/-- Why a command was not started. -/
inductive SpawnFault where
  /-- An executor gave its own reason. -/
  | reported (text : String)
  /-- The helper could not be started. -/
  | notStarted (helper : String) (fault : OsFault)
  /-- The helper could not enter the group. -/
  | notAttached (leaf detail : String)
  /-- The helper could not become the program. -/
  | notExecuted (program detail : String)
deriving DecidableEq, Repr

/-- The message of a command that was not started. -/
def SpawnFault.message : SpawnFault → String
  | .reported text => text
  | .notStarted helper fault => "cannot start helper " ++ helper ++ ": " ++ fault.description
  | .notAttached leaf detail => "helper could not attach to " ++ leaf ++ ": " ++ detail
  | .notExecuted program detail => "helper could not exec " ++ program ++ ": " ++ detail

/-- Why the processor time of a group could not be read. -/
inductive AccountingFault where
  /-- The accounting file cannot be read. -/
  | unreadable (file : String) (fault : OsFault)
  /-- The accounting file has no such entry. -/
  | missing (key file : String)
  /-- The entry is no integer. -/
  | malformed (key file value : String)
deriving DecidableEq, Repr

/-- The message of missing accounting. -/
def AccountingFault.message : AccountingFault → String
  | .unreadable file fault => "cannot read " ++ file ++ ": " ++ fault.description
  | .missing key file => key ++ " missing from " ++ file
  | .malformed key file value => "bad " ++ key ++ " in " ++ file ++ ": " ++ quoted value

/-- Why a field of a usage line is no figure. -/
inductive FieldFault where
  | integer (fault : NumeralError)
  | decimal (fault : DecimalError)
deriving DecidableEq, Repr

/-- The message of a field that is no figure. -/
def FieldFault.message : FieldFault → String
  | .integer fault => fault.message
  | .decimal fault => fault.message

/-- Why a usage record cannot be written or read. -/
inductive FormatFault where
  /-- The workload's name would not be read back. -/
  | unstorableId (id : RawText)
  /-- A line has not the five fields of a record. -/
  | fieldCount (found : Nat) (line : String)
  /-- A field is no figure. -/
  | badField (line : String) (fault : FieldFault)
deriving DecidableEq, Repr

/-- The message of an unusable record. -/
def FormatFault.message : FormatFault → String
  | .unstorableId id => "workload id not storable: " ++ id.quoted
  | .fieldCount found line =>
    "expected 5 fields, got " ++ toString found ++ ": " ++ quoted line
  | .badField line fault => "bad usage record " ++ quoted line ++ ": " ++ fault.message

/-- An argument out of its range. -/
inductive InvalidValue where
  /-- The bounds of an interval are in the wrong order. -/
  | reversed (low high : Number)
  /-- A bound of an interval is infinite or no number. -/
  | notFinite (low high : Decimal)
  /-- A number of steps is negative. -/
  | negativeSteps
  /-- A number of iterations is negative. -/
  | negativeIterations
  /-- A search has no rule that ends it. -/
  | noStopRule
  /-- A tolerance is zero or negative. -/
  | toleranceNotPositive
  /-- A memory limit is negative or no integer; it is given as shown. -/
  | memoryLimit (shown : String)
  /-- A command has no words. -/
  | emptyCommand
  /-- An integer cannot be read or written. -/
  | numeral (fault : NumeralError)
  /-- A path or a word of a command holds the character that ends it. -/
  | nullCharacter
  /-- The file name of a program holds the character that ends it. -/
  | nullInProgram
  /-- A command begins with an empty word. -/
  | emptyProgram
deriving DecidableEq, Repr

/-- The message of an argument out of its range. -/
def InvalidValue.message : InvalidValue → String
  | .reversed low high => "low > high: [" ++ low.text ++ ", " ++ high.text ++ "]"
  | .notFinite low high =>
    "interval bounds must be finite: [" ++ low.text ++ ", " ++ high.text ++ "]"
  | .negativeSteps => "max_steps must be >= 0"
  | .negativeIterations => "iterations must be >= 0"
  | .noStopRule => "need iterations or epsilon"
  | .toleranceNotPositive => "epsilon must be > 0"
  | .memoryLimit shown => "memory limit must be a non-negative int, got " ++ shown
  | .emptyCommand => "empty command"
  | .numeral fault => fault.message
  | .nullCharacter => "embedded null byte"
  | .nullInProgram => "execv: embedded null character in path"
  | .emptyProgram => "execv() arg 2 first element cannot be empty"

/-- Why a setting does not admit a value. -/
inductive IssueKind where
  | intParsing
  | intParsingSize
  | intFromFloat
  | intType
  | finiteNumber
  | floatParsing
  | floatType
  | boolParsing
  | boolType
  | stringType
  | stringUnicode
  | pathType
  | listType
deriving DecidableEq, Repr

/-- A setting, or a place in one, with a value that it does not admit. -/
structure Issue where
  place : List String
  kind : IssueKind
deriving DecidableEq, Repr

/-- Why an operation failed. -/
inductive Failure where
  /-- Groups cannot be used. -/
  | unavailable (cause : Unavailable)
  /-- The command was not started. -/
  | spawn (cause : SpawnFault)
  /-- The processor time could not be read. -/
  | accounting (cause : AccountingFault)
  /-- A usage record cannot be written or read. -/
  | storeFormat (cause : FormatFault)
  /-- An executor, or the body of a block, gave its own reason. -/
  | reported (text : String)
  /-- An argument is out of its range. -/
  | invalid (cause : InvalidValue)
  /-- A text is no memory size. -/
  | size (cause : SizeError)
  /-- A call to the operating system failed. -/
  | os (fault : OsFault)
  /-- A decimal operation has no result. -/
  | signal (signal : Signal)
  /-- Bytes are no text. -/
  | undecodable
  /-- A text has halves of surrogate pairs, which have no bytes. -/
  | unencodable (halves : HalfRun)
  /-- A configuration document has no value. -/
  | document (fault : Yaml.Fault)
  /-- Settings have values that they do not admit. -/
  | settings (issues : List Issue)
  /-- A wait was interrupted. -/
  | interrupted
  /-- The number of a descriptor is out of the range of descriptors. -/
  | descriptorRange (number : Int)
deriving DecidableEq, Repr

/-- The greatest number that a descriptor may have. -/
def maxDescriptor : Int := 2147483647

/-- The message of a descriptor's number that is out of range. -/
def descriptorMessage (number : Int) : String :=
  if 9223372036854775807 < number || number < -9223372036854775808 then
    "Python int too large to convert to C long"
  else if 0 < number then "signed integer is greater than maximum"
  else "signed integer is less than minimum"

/-- The message of halves that have no bytes. -/
def halvesMessage (halves : HalfRun) : String :=
  let head := "'utf-8' codec can't encode character"
  let place := " in position " ++ toString halves.position
  let which :=
    if halves.more = 0 then " '" ++ String.ofList (CodePoint.spelled halves.first) ++ "'" ++ place
    else "s" ++ place ++ "-" ++ toString (halves.position + halves.more)
  head ++ which ++ ": surrogates not allowed"

/-- The message of a failure. -/
def Failure.message : Failure → String
  | .unavailable cause => cause.message
  | .spawn cause => cause.message
  | .accounting cause => cause.message
  | .storeFormat cause => cause.message
  | .reported text => text
  | .invalid cause => cause.message
  | .size cause => cause.message
  | .os fault => fault.description
  | .signal .invalidOperation => "[<class 'decimal.InvalidOperation'>]"
  | .signal .divisionByZero => "[<class 'decimal.DivisionByZero'>]"
  | .signal .overflow => "[<class 'decimal.Overflow'>]"
  | .undecodable => "the bytes are not UTF-8"
  | .unencodable halves => halvesMessage halves
  | .document fault => fault.message
  | .settings _ => "the settings are invalid"
  | .interrupted => "interrupted"
  | .descriptorRange number => descriptorMessage number

/-- The name of the kind of a failure that the program reports to its user and ends with; other failures
have none. -/
def Failure.kindName? : Failure → Option String
  | .unavailable _ => some "CgroupUnavailable"
  | .spawn _ => some "ProcessSpawnFailure"
  | .accounting _ => some "AccountingReadFailure"
  | .storeFormat _ => some "StoreFormatError"
  | .reported _ => some "MemprobeError"
  | _ => none

/-- A decimal operation whose signal is a failure. -/
def Signal.raise {α : Type} (result : Except Signal α) : Except Failure α :=
  result.mapError .signal

end MemoryLimit
