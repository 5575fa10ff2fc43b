import MemoryLimit.Failure

/-!
# Misuse of a command line

## Main definitions

* `Complaint` — what is wrong with one argument.
* `UsageFault` — why a command line is not understood.
* `Stop` — why reading a command line ends early.
-/
namespace MemoryLimit

open Text

/-- What is wrong with one argument. -/
inductive Complaint where
  /-- The option needs a value and none follows. -/
  | expectedValue
  /-- The option has a value and takes none. -/
  | ignoredValue (value : String)
  /-- The value is none of the possible ones. -/
  | invalidChoice (value : String) (choices : List String)
  /-- The value is not of the kind that the option takes. -/
  | invalidValue (kind value : String)
  /-- The value is refused for a reason of its own. -/
  | refused (reason : String)
deriving DecidableEq, Repr

/-- The message of a complaint. -/
def Complaint.message : Complaint → String
  | .expectedValue => "expected one argument"
  | .ignoredValue value => "ignored explicit argument " ++ quoted value
  | .invalidChoice value choices =>
    "invalid choice: " ++ quoted value ++ " (choose from " ++
      String.intercalate ", " (choices.map quoted) ++ ")"
  | .invalidValue kind value => "invalid " ++ kind ++ " value: " ++ quoted value
  | .refused reason => reason

/-- Why a command line is not understood. -/
inductive UsageFault where
  /-- There is something wrong with an argument. -/
  | argument (name : String) (complaint : Complaint)
  /-- A shortened option stands for several ones. -/
  | ambiguous (word : String) (candidates : List String)
  /-- Arguments are missing. -/
  | required (names : List String)
  /-- Arguments are left over. -/
  | unrecognized (words : List String)
  /-- There is no command to run. -/
  | missingCommand
  /-- The bounds of the interval are in the wrong order. -/
  | reversedBounds (low high : Int)
deriving DecidableEq, Repr

/-- The message of a command line that is not understood. -/
def UsageFault.message : UsageFault → String
  | .argument name complaint => "argument " ++ name ++ ": " ++ complaint.message
  | .ambiguous word candidates =>
    "ambiguous option: " ++ word ++ " could match " ++ String.intercalate ", " candidates
  | .required names =>
    "the following arguments are required: " ++ String.intercalate ", " names
  | .unrecognized words => "unrecognized arguments: " ++ String.intercalate " " words
  | .missingCommand => "missing command"
  | .reversedBounds low high =>
    "low (" ++ integerText low ++ ") must not exceed high (" ++ integerText high ++ ")"

/-- Why reading a command line ends early. -/
inductive Stop where
  /-- Help is asked for. -/
  | help
  /-- The command line is not understood. -/
  | misuse (program : String) (fault : UsageFault)
  /-- A value cannot be handled at all. -/
  | failure (failure : Failure)
deriving DecidableEq, Repr

/-- The last line that is written about a misuse. -/
def misuseLine (program : String) (fault : UsageFault) : String :=
  program ++ ": error: " ++ fault.message

end MemoryLimit
