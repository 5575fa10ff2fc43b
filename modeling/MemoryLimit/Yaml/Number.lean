import MemoryLimit.Numeral.Floating
import MemoryLimit.Yaml.Fault

/-!
# Numerals of a document

Underscores in a numeral are ignored. An integer is written to the base two, eight, ten or sixteen, and
both kinds of numbers may be written to the base sixty, with colons between the digits.

## Main definitions

* `readNumber` — the integer that a scalar denotes.
* `readFraction` — the floating point number that a scalar denotes.
-/
namespace MemoryLimit.Yaml

open Text

/-- The value of a digit of a base up to sixteen. -/
private def digitOf? (base : Nat) (c : Char) : Option Nat :=
  (hexValue? c).bind fun n => if n < base then some n else none

/-- The letter of a base that is a power of two. -/
private def baseLetter : Nat → Char
  | 2 => 'b'
  | 8 => 'o'
  | _ => 'x'

/-- Digits without the mark of their base, if they have it. -/
private def dropBaseMark (base : Nat) : List Char → List Char
  | '0' :: letter :: rest =>
    if letter.toLower = baseLetter base then rest else '0' :: letter :: rest
  | s => s

/-- The integer that a numeral to a base denotes. -/
def readInBase (base : Nat) (text : List Char) : Except Fault Int :=
  let (negative, unsigned) := splitSign (trim (text.map plainCharacter))
  let digits := dropBaseMark base unsigned
  match digits.isEmpty, digits.mapM (digitOf? base) with
  | false, some values =>
    .ok (signed negative (values.foldl (fun n digit => base * n + digit) 0))
  | _, _ => .error (.integerInBase base (String.ofList text))

/-- A numeral without underscores, split into its sign and the rest. -/
def splitNumeral (text : List Char) : Except Fault (Bool × List Char) :=
  match splitSign (text.filter (· ≠ '_')) with
  | (_, []) => .error .emptyNumeral
  | found => .ok found

/-- A text cut at its colons. -/
def splitColons (s : List Char) : List (List Char) :=
  match s with
  | [] => [[]]
  | c :: rest =>
    match splitColons rest with
    | [] => [[c]]
    | part :: parts => if c = ':' then [] :: part :: parts else (c :: part) :: parts

/-- The integer that a decimal numeral denotes. -/
private def readDecimalInteger (s : List Char) : Except Fault Int :=
  (readInteger (String.ofList s)).mapError .integer

/-- The floating point number that a numeral without colons denotes. -/
private def readDecimalFraction (s : List Char) : Except Fault Binary64 :=
  match readFloat? (String.ofList s) with
  | some x => .ok x
  | none => .error (.float (String.ofList s))

/-- The integer that a scalar denotes. -/
def readNumber (text : String) : Except Fault Int := do
  let (negative, s) ← splitNumeral text.toList
  let magnitude ←
    match s with
    | ['0'] => pure 0
    | '0' :: 'b' :: digits => readInBase 2 digits
    | '0' :: 'x' :: digits => readInBase 16 digits
    | '0' :: _ => readInBase 8 s
    | _ =>
      if s.contains ':' then do
        let parts ← (splitColons s).mapM readDecimalInteger
        pure (parts.foldl (fun n part => 60 * n + part) 0)
      else readDecimalInteger s
  return if negative then -magnitude else magnitude

/-- The sum of numbers to the base sixty, least first; `unit` is the value of one in the first place.
Each product and each sum is rounded. -/
def sumSixties : Binary64 → Nat → List Binary64 → Binary64
  | sum, _, [] => sum
  | sum, unit, x :: rest => sumSixties (sum.add (x.mul (.ofInt unit))) (60 * unit) rest

/-- The floating point number that a scalar denotes. -/
def readFraction (text : String) : Except Fault Binary64 := do
  let (negative, s) ← splitNumeral (lowerAscii text.toList)
  let magnitude ←
    if s = ".inf".toList then pure (.infinity false)
    else if s = ".nan".toList then pure .nan
    else if s.contains ':' then do
      let parts ← (splitColons s).mapM readDecimalFraction
      pure (sumSixties (.zero false) 1 parts.reverse)
    else readDecimalFraction s
  return if negative then magnitude.neg else magnitude

end MemoryLimit.Yaml
