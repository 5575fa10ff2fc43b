import MemoryLimit.Numeral.Integer
import MemoryLimit.Yaml.Moment

/-!
# Unreadable documents

## Main definitions

* `Fault` — why a document has no value.
* `Fault.message` — its message.
-/
namespace MemoryLimit.Yaml

open Text

/-- Why a document has no value. -/
inductive Fault where
  /-- The document is not well formed, or has a node that does not fit its tag. -/
  | malformed
  /-- An escape stands for no character. -/
  | noCharacter (code : Nat)
  /-- A numeral has no characters. -/
  | emptyNumeral
  /-- An integer cannot be read. -/
  | integer (fault : NumeralError)
  /-- An integer in another base cannot be read. -/
  | integerInBase (base : Nat) (text : String)
  /-- A floating point number cannot be read. -/
  | float (text : String)
  /-- A word does not stand for true or false. -/
  | truthWord (text : String)
  /-- A text is no date. -/
  | noMoment
  /-- A date does not exist. -/
  | calendar (fault : CalendarFault)
deriving DecidableEq, Repr

/-- The greatest number that may be asked to be a character. -/
def maxCharacterCode : Nat := 2147483647

/-- The message about a document that has no value. -/
def Fault.message : Fault → String
  | malformed => "the document is malformed"
  | noCharacter code =>
    if maxCharacterCode < code then "Python int too large to convert to C int"
    else "chr() arg not in range(0x110000)"
  | emptyNumeral => "string index out of range"
  | integer fault => fault.message
  | integerInBase base text =>
    "invalid literal for int() with base " ++ toString base ++ ": " ++ cut 200 (quoted text)
  | float text => "could not convert string to float: " ++ quoted text
  | truthWord text => quoted text
  | noMoment => "'NoneType' object has no attribute 'groupdict'"
  | calendar fault => fault.message

end MemoryLimit.Yaml
