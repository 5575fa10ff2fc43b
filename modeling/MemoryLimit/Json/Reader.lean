import MemoryLimit.Json.Value
import MemoryLimit.Numeral.Floating

/-!
# Reading JSON

Besides the values of the standard, the names `NaN`, `Infinity` and `-Infinity` are numbers, and an
integer may have at most as many digits as an integer numeral. An escaped surrogate that is not half
of a pair stands for no character, but it is kept in the text that it stands in; in the name of a
member it is replaced.

## Main definitions

* `Json.read?` — the value that a text denotes.
-/
namespace MemoryLimit.Json

open Text

/-- Drops the blanks that JSON allows between tokens. -/
def skipBlanks (s : List Char) : List Char :=
  s.dropWhile fun c => c = ' ' || c = '\t' || c = '\n' || c = '\r'

/-- Four hexadecimal digits at the front of a text. -/
def takeUnit? : List Char → Option (Nat × List Char)
  | a :: b :: c :: d :: rest => (hexNumber? [a, b, c, d]).map (·, rest)
  | _ => none

/-- The character of an escape of one letter. -/
def escapedLetter? : Char → Option Char
  | '"' => some '"'
  | '\\' => some '\\'
  | '/' => some '/'
  | 'b' => some '\x08'
  | 'f' => some '\x0c'
  | 'n' => some '\n'
  | 'r' => some '\r'
  | 't' => some '\t'
  | _ => none

/-- The second half of a surrogate pair, if it follows. -/
def takeLowSurrogate? : List Char → Option (Nat × List Char)
  | '\\' :: 'u' :: rest =>
    match takeUnit? rest with
    | some (n, after) => if 0xdc00 ≤ n && n ≤ 0xdfff then some (n, after) else none
    | none => none
  | _ => none

/-- The characters of a string, after its opening quote, and what follows its closing quote. -/
def readCharacters : Nat → List Char → Option (List CodePoint × List Char)
  | 0, _ => none
  | _, [] => none
  | _, '"' :: rest => some ([], rest)
  | fuel + 1, '\\' :: 'u' :: rest => do
    let (unit, after) ← takeUnit? rest
    let (code, after) :=
      if 0xd800 ≤ unit && unit ≤ 0xdbff then
        match takeLowSurrogate? after with
        | some (low, beyond) => (0x10000 + (unit - 0xd800) * 0x400 + (low - 0xdc00), beyond)
        | none => (unit, after)
      else (unit, after)
    let (points, rest) ← readCharacters fuel after
    some (.ofCode code :: points, rest)
  | fuel + 1, '\\' :: letter :: rest => do
    let c ← escapedLetter? letter
    let (points, rest) ← readCharacters fuel rest
    some (.char c :: points, rest)
  | fuel + 1, c :: rest =>
    if c.toNat < 32 || c = '\\' then none
    else (readCharacters fuel rest).map fun (points, rest) => (.char c :: points, rest)

/-- A text without a given beginning. -/
def dropStart? : List Char → List Char → Option (List Char)
  | [], s => some s
  | c :: word, d :: s => if c = d then dropStart? word s else none
  | _ :: _, [] => none

/-- The whole part of a number: zero, or digits that do not begin with zero. -/
def takeWhole? (s : List Char) : Option (List Nat × List Char) :=
  match s with
  | '0' :: rest => some ([0], rest)
  | _ =>
    match takeDigits s with
    | ([], _) => none
    | found => some found

/-- The digits after a point, if there are any; the text is left as it is otherwise. -/
def takePlaces (s : List Char) : List Nat × List Char :=
  match s with
  | '.' :: rest =>
    match takeDigits rest with
    | ([], _) => ([], s)
    | found => found
  | _ => ([], s)

/-- The exponent at the front of a text, if there is a whole one. -/
def takeExponent (s : List Char) : Option Int × List Char :=
  match s with
  | c :: rest =>
    if c = 'e' || c = 'E' then
      let (negative, unsigned) := splitSign rest
      match takeDigits unsigned with
      | ([], _) => (none, s)
      | (digits, after) => (some (signed negative (digitsValue digits)), after)
    else (none, s)
  | [] => (none, s)

/-- A number at the front of a text. Without a point and an exponent it is an integer. -/
def readNumber? (negative : Bool) (s : List Char) : Option (Json × List Char) := do
  let (whole, afterWhole) ← takeWhole? s
  let (places, afterPlaces) := takePlaces afterWhole
  let (exponent, rest) := takeExponent afterPlaces
  if places.isEmpty && exponent.isNone then
    if whole.length > maxNumeralDigits then none
    else some (integer (signed negative (digitsValue whole)), rest)
  else
    let scale := exponent.getD 0 - (places.length : Int)
    some (float (Binary64.ofDecimal negative (digitsValue (whole ++ places)) scale), rest)

/-- A number or the name of a constant, at the front of a text. -/
def readScalar? (s : List Char) : Option (Json × List Char) :=
  match s with
  | 'n' :: _ => (dropStart? "null".toList s).map (null, ·)
  | 't' :: _ => (dropStart? "true".toList s).map (bool true, ·)
  | 'f' :: _ => (dropStart? "false".toList s).map (bool false, ·)
  | 'N' :: _ => (dropStart? "NaN".toList s).map (float .nan, ·)
  | 'I' :: _ => (dropStart? "Infinity".toList s).map (float (.infinity false), ·)
  | '-' :: 'I' :: _ => (dropStart? "-Infinity".toList s).map (float (.infinity true), ·)
  | '-' :: rest => readNumber? true rest
  | _ => readNumber? false s

mutual
/-- A value at the front of a text that begins with no blank, and what follows it. -/
def readValue? : Nat → List Char → Option (Json × List Char)
  | 0, _ => none
  | _ + 1, '"' :: rest =>
    (readCharacters (rest.length + 1) rest).map fun (points, rest) => (string ⟨points⟩, rest)
  | fuel + 1, '[' :: rest =>
    match skipBlanks rest with
    | ']' :: rest => some (array [], rest)
    | rest => (readItems? fuel rest).map fun (items, rest) => (array items, rest)
  | fuel + 1, '\x7b' :: rest =>
    match skipBlanks rest with
    | '\x7d' :: rest => some (object [], rest)
    | rest => (readMembers? fuel rest).map fun (members, rest) => (object members, rest)
  | _, s => readScalar? s

/-- The items of an array that has at least one, and what follows its closing bracket. -/
def readItems? : Nat → List Char → Option (List Json × List Char)
  | 0, _ => none
  | fuel + 1, s => do
    let (item, rest) ← readValue? fuel (skipBlanks s)
    match skipBlanks rest with
    | ',' :: rest =>
      let (items, rest) ← readItems? fuel rest
      some (item :: items, rest)
    | ']' :: rest => some ([item], rest)
    | _ => none

/-- The members of an object that has at least one, and what follows its closing brace. -/
def readMembers? : Nat → List Char → Option (List (String × Json) × List Char)
  | 0, _ => none
  | fuel + 1, s =>
    match skipBlanks s with
    | '"' :: rest => do
      let (name, rest) ← readCharacters (rest.length + 1) rest
      match skipBlanks rest with
      | ':' :: rest =>
        let (value, rest) ← readValue? fuel (skipBlanks rest)
        let member := (RawText.string ⟨name⟩, value)
        match skipBlanks rest with
        | ',' :: rest =>
          let (members, rest) ← readMembers? fuel rest
          some (member :: members, rest)
        | '\x7d' :: rest => some ([member], rest)
        | _ => none
      | _ => none
    | _ => none
end

/-- The value that a text denotes. -/
def read? (text : String) : Option Json :=
  let s := skipBlanks text.toList
  match readValue? (2 * s.length + 2) s with
  | some (value, rest) => if (skipBlanks rest).isEmpty then some value else none
  | none => none

end MemoryLimit.Json
