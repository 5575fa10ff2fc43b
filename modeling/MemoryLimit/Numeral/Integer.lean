import MemoryLimit.Text.Blank
import MemoryLimit.Text.Digit
import MemoryLimit.Text.Quoted

/-!
# Integer numerals

An integer is written with an optional sign and digits of any script; single underscores may stand
between digits, and blanks around the whole. Numerals of more than 4300 digits are neither read nor
written, because the time to convert them grows with the square of their length.

## Main definitions

* `readInteger` — the value of a numeral, or why there is none.
* `writeInteger` — the numeral of a value.
* `NumeralError` — the two ways in which a text is no acceptable numeral.
-/
namespace MemoryLimit

open Text

/-- Why a text is not read as an integer, or an integer not written. -/
inductive NumeralError where
  /-- The text is no numeral. -/
  | malformed (text : String)
  /-- The numeral has too many digits to be read. -/
  | tooLongToRead (digits : Nat)
  /-- The value has too many digits to be written. -/
  | tooLongToWrite
deriving DecidableEq, Repr

/-- The number of digits that a numeral may have. -/
def maxNumeralDigits : Nat := 4300

/-- The message of a numeral error. A malformed text is shown by at most 200 characters. -/
def NumeralError.message : NumeralError → String
  | .malformed text => "invalid literal for int() with base 10: " ++ cut 200 (quoted text)
  | .tooLongToRead digits =>
    "Exceeds the limit (4300 digits) for integer string conversion: value has " ++
      toString digits ++ " digits; use sys.set_int_max_str_digits() to increase the limit"
  | .tooLongToWrite =>
    "Exceeds the limit (4300 digits) for integer string conversion; " ++
      "use sys.set_int_max_str_digits() to increase the limit"

/-- The ASCII blank or digit that a character stands for; a character beyond ASCII that stands for
neither becomes a question mark, which no numeral has. -/
def plainCharacter (c : Char) : Char :=
  if c.toNat < 127 then c
  else if isBlank c then ' '
  else ((digitValue? c).map Nat.digitChar).getD '?'

/-- Splits off a sign; the flag says that it is a minus sign. -/
def splitSign : List Char → Bool × List Char
  | '-' :: rest => (true, rest)
  | '+' :: rest => (false, rest)
  | s => (false, s)

/-- Reads ASCII digits with single underscores between them. `afterDigit` says that the character
before was a digit, so that an underscore may follow. The answer has the digits and what follows
them; there is none if an underscore does not stand between two digits. -/
def takeGroupedDigits : Bool → List Char → Option (List Nat × List Char)
  | afterDigit, '_' :: rest =>
    if afterDigit then takeGroupedDigits false rest else none
  | afterDigit, c :: rest =>
    if c.isDigit then
      (takeGroupedDigits true rest).map fun (digits, after) => ((c.toNat - 48) :: digits, after)
    else if afterDigit then some ([], c :: rest) else none
  | afterDigit, [] => if afterDigit then some ([], []) else none

/-- An integer of the given sign. -/
def signed (negative : Bool) (n : Nat) : Int :=
  if negative then -(n : Int) else n

/-- The value of an integer numeral. -/
def readInteger (text : String) : Except NumeralError Int :=
  let plain := text.toList.map plainCharacter
  let (negative, unsigned) := splitSign (trimLeft isAsciiBlank plain)
  match takeGroupedDigits false unsigned with
  | none => .error (.malformed text)
  | some (digits, after) =>
    if digits.length > maxNumeralDigits then .error (.tooLongToRead digits.length)
    else if (trimLeft isAsciiBlank after).isEmpty then .ok (signed negative (digitsValue digits))
    else .error (.malformed text)

/-- The numeral of an integer, however long. -/
def integerText (i : Int) : String :=
  let digits := String.ofList (natDigits i.natAbs)
  if i < 0 then "-" ++ digits else digits

/-- The numeral of an integer. -/
def writeInteger (i : Int) : Except NumeralError String :=
  if digitCount i.natAbs > maxNumeralDigits then .error .tooLongToWrite else .ok (integerText i)

end MemoryLimit
