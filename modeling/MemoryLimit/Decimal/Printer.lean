import MemoryLimit.Decimal.Basic

/-!
# The text of a decimal number

A number is written with all its digits. The text is positional when the exponent is not positive
and at most five zeros stand between the point and the first digit; otherwise one digit stands
before the point and the exponent follows.

## Main definitions

* `Number.text`, `Decimal.text` — the text of a number; reading it gives the same number back, the
  scale and the payload included.
-/
namespace MemoryLimit

open Text

/-- A point and what follows it, or nothing. -/
def fractionText (digits : List Char) : List Char :=
  if digits.isEmpty then [] else '.' :: digits

/-- The exponent of a number in scientific notation, always with its sign. -/
def scaleText (e : Int) : List Char :=
  'E' :: (if e < 0 then '-' else '+') :: natDigits e.natAbs

/-- The characters of a number's magnitude. -/
def Number.magnitudeText (x : Number) : List Char :=
  let digits := natDigits x.coefficient
  let point : Int := x.exponent + digits.length
  if x.exponent ≤ 0 && -6 < point then
    if point ≤ 0 then '0' :: '.' :: (List.replicate (-point).toNat '0' ++ digits)
    else digits.take point.toNat ++ fractionText (digits.drop point.toNat)
  else
    digits.take 1 ++ fractionText (digits.drop 1) ++
      (if point = 1 then [] else scaleText (point - 1))

/-- A minus sign for a negative number. -/
def signText (negative : Bool) : List Char :=
  if negative then ['-'] else []

/-- The text of a finite number. -/
def Number.text (x : Number) : String :=
  String.ofList (signText x.negative ++ x.magnitudeText)

/-- The characters of a decimal number. -/
def Decimal.chars : Decimal → List Char
  | .finite x => signText x.negative ++ x.magnitudeText
  | .infinity negative => signText negative ++ "Infinity".toList
  | .nan negative signaling payload =>
    signText negative ++ (if signaling then "sNaN" else "NaN").toList ++
      (if payload = 0 then [] else natDigits payload)

/-- The text of a decimal number. -/
def Decimal.text (d : Decimal) : String :=
  String.ofList d.chars

end MemoryLimit
