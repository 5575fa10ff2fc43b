import MemoryLimit.Binary64.Basic
import MemoryLimit.Instances
import MemoryLimit.Text.Digit

/-!
# The shortest text of a binary number

A finite number is written with the fewest decimal digits that read back to it. Of several such
decimals the nearest is taken, and from halfway the one with the even last digit.

## Main definitions

* `Binary64.shortest` — the digits and the place of the decimal point.
* `Binary64.text` — the text of a number: positional when its point stands at most sixteen places
  after the first digit and at most three zeros before it, and with an exponent otherwise.
-/
namespace MemoryLimit.Binary64

open Instances

/-- The reals that read back to a number, in units of a quarter of its last place, which is
`2 ^ unit`: the value and the two ends, and whether the ends belong to it. -/
structure Basin where
  value : Nat
  low : Nat
  high : Nat
  unit : Int
  closed : Bool

/-- The basin of a positive number. Below a power of two the numbers are twice as dense. -/
def basin (mantissa : Nat) (exponent : Int) : Basin :=
  let low := if mantissa = 2 ^ (52 : Nat) && minExponent < exponent then 1 else 2
  ⟨4 * mantissa, 4 * mantissa - low, 4 * mantissa + 2, exponent - 2, mantissa % 2 == 0⟩

/-- The numerator and denominator of `2 ^ unit / 10 ^ place`. -/
def gridRatio (unit place : Int) : Nat × Nat :=
  (2 ^ unit.toNat * 10 ^ (-place).toNat, 2 ^ (-unit).toNat * 10 ^ place.toNat)

/-- The multiple of `10 ^ place` in a basin that is nearest to its value. -/
def Basin.nearest? (b : Basin) (place : Int) : Option Nat :=
  let (num, den) := gridRatio b.unit place
  let below := b.value * num / den
  let inside (k : Nat) : Bool :=
    if b.closed then b.low * num ≤ k * den && k * den ≤ b.high * num
    else b.low * num < k * den && k * den < b.high * num
  let nearest := roundHalfEven (b.value * num) den
  let other := if nearest = below then below + 1 else below
  if inside nearest && 0 < nearest then some nearest
  else if inside other && 0 < other then some other
  else none

/-- The place of the first digit of a positive number: the `p` with `10 ^ (p - 1) ≤ value < 10 ^ p`. -/
def Basin.magnitude (b : Basin) : Int :=
  let (num, den) := gridRatio b.unit 0
  let whole := b.value * num / den
  if 0 < whole then (Text.digitCount whole : Int)
  else
    -- the value is below one: count the places until its first digit
    let inverse := (den + b.value * num - 1) / (b.value * num)
    let places := Text.digitCount (inverse - 1)
    1 - (places : Int)

/-- The digits of the shortest decimal in a basin, tried with more and more digits. The answer is a
coefficient and the place of its last digit. -/
def Basin.shortestFrom (b : Basin) (magnitude : Int) : Nat → Nat → Nat × Int
  | 0, digits => ((b.nearest? (magnitude - digits)).getD 0, magnitude - digits)
  | fuel + 1, digits =>
    match b.nearest? (magnitude - digits) with
    | some k => (k, magnitude - digits)
    | none => b.shortestFrom magnitude fuel (digits + 1)

/-- A coefficient without its trailing zeros; the place moves along. -/
def dropZeros : Nat → Nat → Int → Nat × Int
  | 0, coefficient, place => (coefficient, place)
  | fuel + 1, coefficient, place =>
    if coefficient % 10 = 0 && coefficient ≠ 0 then dropZeros fuel (coefficient / 10) (place + 1)
    else (coefficient, place)

/-- The shortest decimal that reads back to a positive number: its digits, and the place of the
decimal point counted from the left of the first digit. -/
def shortest (mantissa : Nat) (exponent : Int) : List Char × Int :=
  let b := basin mantissa exponent
  let (k, place) := b.shortestFrom b.magnitude 17 1
  let (coefficient, last) := dropZeros 20 k place
  let digits := Text.natDigits coefficient
  (digits, last + digits.length)

/-- The exponent of a text: its sign, and at least two digits. -/
def exponentText (e : Int) : List Char :=
  let digits := Text.natDigits e.natAbs
  'e' :: (if e < 0 then '-' else '+') :: (List.replicate (2 - digits.length) '0' ++ digits)

/-- The text of a positive number, from its digits and the place of its point. -/
def digitsText (digits : List Char) (point : Int) : List Char :=
  if -4 < point && point ≤ 16 then
    if point ≤ 0 then '0' :: '.' :: (List.replicate (-point).toNat '0' ++ digits)
    else
      let p := point.toNat
      let fraction := digits.drop p
      digits.take p ++ List.replicate (p - digits.length) '0' ++
        '.' :: (if fraction.isEmpty then ['0'] else fraction)
  else
    match digits with
    | [d] => d :: exponentText (point - 1)
    | d :: rest => d :: '.' :: rest ++ exponentText (point - 1)
    | [] => []

/-- The text of a number. -/
def text : Binary64 → String
  | nan => "nan"
  | infinity negative => if negative then "-inf" else "inf"
  | finite negative m e =>
    let magnitude :=
      if m = 0 then ['0', '.', '0']
      else
        let (digits, point) := shortest m e
        digitsText digits point
    String.ofList (if negative then '-' :: magnitude else magnitude)

end MemoryLimit.Binary64
