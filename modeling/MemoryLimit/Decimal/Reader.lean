import MemoryLimit.Decimal.Basic
import MemoryLimit.Numeral.Floating

/-!
# Reading decimal numbers

A decimal numeral is a fraction with an optional exponent, an infinity, or no number with an optional
payload. Blanks around it and underscores anywhere in it are dropped, digits of any script are
accepted, and the value is exact: reading never rounds.

## Main definitions

* `DecimalError` — why a text is no decimal number.
* `readDecimal` — the number that a text denotes.
-/
namespace MemoryLimit

open Text

/-- Why a text is not read as a decimal number. -/
inductive DecimalError where
  /-- The text is no numeral. -/
  | malformed
  /-- The exponent is out of range. -/
  | exponentOutOfRange
deriving DecidableEq, Repr

/-- The message of a decimal error. -/
def DecimalError.message : DecimalError → String
  | .malformed => "[<class 'decimal.ConversionSyntax'>]"
  | .exponentOutOfRange => "[<class 'decimal.InvalidOperation'>]"

/-- The greatest exponent, in scientific notation, of a number that can be held exactly. -/
def exactMaxExponent : Int := 999999999999999999

/-- The least exponent of the last digit of a number that can be held exactly. -/
def exactMinUnit : Int := -1999999999999999997

/-- Whether a number can be held without changing its exponent. -/
def Number.isExact (x : Number) : Bool :=
  exactMinUnit ≤ x.exponent &&
    (if x.coefficient = 0 then x.exponent else x.adjusted) ≤ exactMaxExponent

/-- The payload of no number: digits, or nothing for zero. -/
def readPayload? (s : List Char) : Option Nat :=
  match takeDigits s with
  | (digits, []) => some (digitsValue digits)
  | _ => none

/-- The names of the values that are not finite: the rest of the text after a name, in lower case. -/
def readSpecial? (negative : Bool) (s : List Char) : Option Decimal :=
  match lowerAscii s with
  | ['i', 'n', 'f'] => some (.infinity negative)
  | ['i', 'n', 'f', 'i', 'n', 'i', 't', 'y'] => some (.infinity negative)
  | 'n' :: 'a' :: 'n' :: payload => (readPayload? payload).map (.nan negative false)
  | 's' :: 'n' :: 'a' :: 'n' :: payload => (readPayload? payload).map (.nan negative true)
  | _ => none

/-- Reads a plain ASCII numeral. -/
def readPlainDecimal (s : List Char) : Except DecimalError Decimal :=
  let (negative, unsigned) := splitSign s
  match readSpecial? negative unsigned with
  | some d => .ok d
  | none =>
    match readFraction? unsigned with
    | none => .error .malformed
    | some f =>
      let x : Number := ⟨negative, f.coefficient, f.exponent⟩
      if x.isExact then .ok (.finite x) else .error .exponentOutOfRange

/-- The decimal number that a text denotes. -/
def readDecimal (text : String) : Except DecimalError Decimal :=
  readPlainDecimal (((trim text.toList).filter (· ≠ '_')).map plainCharacter)

end MemoryLimit
