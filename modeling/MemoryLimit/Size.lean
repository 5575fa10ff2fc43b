import MemoryLimit.Binary64.Basic
import MemoryLimit.Numeral.Floating
import MemoryLimit.Text.Quoted

/-!
# Memory sizes

A memory size is a decimal fraction with an optional binary unit: `128M`, `1.5 GiB`, `4096`. The
fraction is read as a floating point number, scaled by its unit, and cut to whole bytes. Letters
count in either case, and digits of any script are digits.

## Main definitions

* `SizeError` — why a text is no size.
* `readSize` — the number of bytes that a text denotes.
-/
namespace MemoryLimit

open Text

/-- Why a text is no memory size. -/
inductive SizeError where
  /-- The text, as shown, is not a fraction with a unit. -/
  | malformed (shown : String)
  /-- The letter looks like a unit and is none: the Kelvin sign. -/
  | unknownUnit (letter : Char)
  /-- The size is too large for a floating point number. -/
  | infinite
deriving DecidableEq, Repr

/-- The message of a size error. -/
def SizeError.message : SizeError → String
  | .malformed shown => "invalid memory size: " ++ shown
  | .unknownUnit letter => quoted (String.ofList [letter])
  | .infinite => "cannot convert float infinity to integer"

/-- The powers of 1024 that the unit letters stand for. -/
def unitPower? : Char → Option Nat
  | 'K' | 'k' => some 1
  | 'M' | 'm' => some 2
  | 'G' | 'g' => some 3
  | 'T' | 't' => some 4
  | _ => none

/-- The Kelvin sign, which is equal to the letter K when case is ignored. -/
def kelvinSign : Char := '\u212A'

/-- The letters equal to `i` when case is ignored; two of them have or lack a dot of their own. -/
def isBinaryMark (c : Char) : Bool :=
  c = 'i' || c = 'I' || c = '\u0130' || c = '\u0131'

/-- The letters that abbreviate bytes. -/
def isByteMark (c : Char) : Bool :=
  c = 'b' || c = 'B'

/-- A text without its first character if that is of a class. -/
def dropOptional (p : Char → Bool) : List Char → List Char
  | c :: rest => if p c then rest else c :: rest
  | [] => []

/-- What is left of a text when an optional unit letter is taken off its front. -/
def takeUnit : List Char → Option Char × List Char
  | c :: rest => if (unitPower? c).isSome || c = kelvinSign then (some c, rest) else (none, c :: rest)
  | [] => (none, [])

/-- The digits of any script at the front of a text, as values, and what follows them. -/
def takeScriptDigits (s : List Char) : List Nat × List Char :=
  ((s.takeWhile isDecimalDigit).filterMap digitValue?, s.dropWhile isDecimalDigit)

/-- The fraction at the front of a text and what follows it. A point counts only if a digit follows. -/
def takeFraction? (s : List Char) : Option (DecimalFraction × List Char) :=
  let (whole, afterWhole) := takeScriptDigits s
  if whole.isEmpty then none
  else
    match afterWhole with
    | '.' :: rest =>
      let (places, afterPlaces) := takeScriptDigits rest
      if places.isEmpty then some (⟨digitsValue whole, 0⟩, afterWhole)
      else some (⟨digitsValue (whole ++ places), -(places.length : Int)⟩, afterPlaces)
    | _ => some (⟨digitsValue whole, 0⟩, afterWhole)

/-- The parts of a size: the fraction and the unit letter. -/
def sizeParts? (s : List Char) : Option (DecimalFraction × Option Char) := do
  let (fraction, rest) ← takeFraction? (trimLeft isBlank s)
  let (unit, rest) := takeUnit (trimLeft isBlank rest)
  let rest := dropOptional isByteMark (dropOptional isBinaryMark rest)
  if (trimLeft isBlank rest).isEmpty then some (fraction, unit) else none

/-- A floating point number of bytes, cut to a whole number. -/
def wholeBytes (x : Binary64) : Except SizeError Nat :=
  match x.truncate? with
  | some i => .ok i.toNat
  | none => .error .infinite

/-- The number of bytes that a text denotes. `shown` is the text as a message shows it. -/
def readSizeAs (text shown : String) : Except SizeError Nat :=
  match sizeParts? text.toList with
  | none => .error (.malformed shown)
  | some (fraction, unit) =>
    let value := Binary64.ofDecimal false fraction.coefficient fraction.exponent
    match unit with
    | none => wholeBytes value
    | some letter =>
      match unitPower? letter with
      | none => .error (.unknownUnit letter)
      | some power => wholeBytes (value.scale (10 * power))

/-- The number of bytes that a text denotes. -/
def readSize (text : String) : Except SizeError Nat :=
  readSizeAs text (quoted text)

end MemoryLimit
