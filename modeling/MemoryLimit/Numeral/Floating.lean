import MemoryLimit.Binary64.Basic
import MemoryLimit.Numeral.Integer

/-!
# Floating point numerals

A floating point numeral is a decimal fraction with an optional exponent, or the name of an infinity
or of no number; single underscores may stand between digits, and blanks around the whole.

## Main definitions

* `DecimalFraction` — a sign, the digits as one natural, and the power of ten that scales it.
* `readFraction?` — a fraction with an optional exponent, and nothing else.
* `readFloat?` — the number that a numeral denotes.
-/
namespace MemoryLimit

open Text

/-- A decimal fraction `coefficient * 10 ^ exponent`. -/
structure DecimalFraction where
  coefficient : Nat
  exponent : Int
deriving DecidableEq, Repr

/-- The digits at the front of a text, as values, and what follows them. -/
def takeDigits (s : List Char) : List Nat × List Char :=
  ((s.takeWhile Char.isDigit).map (·.toNat - 48), s.dropWhile Char.isDigit)

/-- The exponent of a numeral: nothing, or the letter, an optional sign, and digits. -/
def readExponent? : List Char → Option Int
  | [] => some 0
  | c :: rest =>
    if c = 'e' || c = 'E' then
      let (negative, unsigned) := splitSign rest
      match takeDigits unsigned with
      | ([], _) => none
      | (digits, []) => some (signed negative (digitsValue digits))
      | _ => none
    else none

/-- The value of an unsigned decimal fraction with an optional exponent. At least one digit stands
before or after the point. -/
def readFraction? (s : List Char) : Option DecimalFraction :=
  let (whole, afterWhole) := takeDigits s
  let (places, afterPlaces) :=
    match afterWhole with
    | '.' :: rest => takeDigits rest
    | rest => ([], rest)
  if whole.isEmpty && places.isEmpty then none
  else
    (readExponent? afterPlaces).map fun e =>
      ⟨digitsValue (whole ++ places), e - (places.length : Int)⟩

/-- Removes the underscores of a numeral, each of which must stand between two digits. `before` says
whether the character before is a digit, and `pending` whether it is an underscore. -/
def dropUnderscores : Bool → Bool → List Char → Option (List Char)
  | _, pending, [] => if pending then none else some []
  | before, pending, '_' :: rest =>
    if before && !pending then dropUnderscores false true rest else none
  | _, pending, c :: rest =>
    if pending && !c.isDigit then none
    else (dropUnderscores c.isDigit false rest).map (c :: ·)

/-- An ASCII text in lower case. -/
def lowerAscii (s : List Char) : List Char :=
  s.map Char.toLower

/-- The number that a plain ASCII numeral denotes. -/
def readPlainFloat? (s : List Char) : Option Binary64 :=
  let (negative, unsigned) := splitSign s
  let name := String.ofList (lowerAscii unsigned)
  if name = "inf" || name = "infinity" then some (.infinity negative)
  else if name = "nan" then some .nan
  else (readFraction? unsigned).map fun f => .ofDecimal negative f.coefficient f.exponent

/-- The number that a numeral denotes. -/
def readFloat? (text : String) : Option Binary64 := do
  let plain := trimOf isAsciiBlank (text.toList.map plainCharacter)
  let bare ← dropUnderscores false false plain
  readPlainFloat? bare

end MemoryLimit
