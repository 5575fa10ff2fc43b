import MemoryLimit.Failure
import MemoryLimit.Instances
import MemoryLimit.Numeral.Floating
import MemoryLimit.Path
import MemoryLimit.Text.Blank
import MemoryLimit.Yaml.Value

/-!
# Values of settings

A setting admits more than the values of its own kind: a text may spell a number, and true and false
count as one and zero. What is not admitted is an issue.

## Main definitions

* `readIntegerField`, `readFloatField`, `readBoolField`, `readTextField`, `readPathField`,
  `readTextsField` — the value that a setting of a kind gets.
* `optionalField`, `orNull` — a setting that may be missing, and the value that it is written as.
-/
namespace MemoryLimit

open Instances Text
open Yaml (Value)

/-- The outcome of reading a value: what the setting gets, or why nothing. -/
abbrev Field (α : Type) := Except IssueKind α

/-- White space that may stand around a number. The information separators are no white space. -/
def isWhiteSpace (c : Char) : Bool :=
  isBlank c && !(28 ≤ c.toNat && c.toNat ≤ 31)

/-- The text that a value spells, if it is a text or bytes; `bad` is what is wrong with bytes that are
no text. -/
def spelling (bad : IssueKind) : Value → Field (Option String)
  | .text s => .ok (some s)
  | .bytes octets =>
    match String.fromUTF8? ⟨octets.toArray⟩ with
    | some s => .ok (some s)
    | none => .error bad
  | _ => .ok none

/-! ## Integers -/

/-- Digits, with underscores, without the zeros at their front; one zero is kept before a point and at
the end. -/
def dropLeadingZeros : List Char → Option (List Char)
  | '-' :: rest => some ('-' :: rest)
  | '0' :: rest =>
    match rest.dropWhile fun c => c = '0' || c = '_' with
    | [] => some [rest.getLast?.getD '0']
    | '.' :: places =>
      some (((rest.takeWhile fun c => c = '0' || c = '_').getLast?.getD '0') :: '.' :: places)
    | c :: more => if c.isDigit then some (c :: more) else none
  | c :: rest => if c.isDigit then some (c :: rest) else none
  | [] => none

/-- A numeral without a point that only zeros follow. -/
def dropZeroPlaces (s : List Char) : List Char :=
  match s.dropWhile (· ≠ '.') with
  | '.' :: places =>
    if !places.isEmpty && places.all (· = '0') then s.takeWhile (· ≠ '.') else s
  | _ => s

/-- Whether two underscores stand side by side. -/
def hasDoubleGap : List Char → Bool
  | '_' :: '_' :: _ => true
  | _ :: rest => hasDoubleGap rest
  | [] => false

/-- A numeral without its underscores, if all of them are single and none is at an end. -/
def dropGaps (s : List Char) : List Char :=
  if s.head? = some '_' || s.getLast? = some '_' || hasDoubleGap s then s
  else s.filter (· ≠ '_')

/-- The value of a numeral with an optional minus sign and no needless zeros. -/
def readPlainInteger (s : List Char) : Field Int :=
  let (negative, digits) :=
    match s with
    | '-' :: rest => (true, rest)
    | rest => (false, rest)
  if digits.isEmpty || !digits.all Char.isDigit || (digits.head? = some '0' && digits.length ≠ 1) then
    .error .intParsing
  else if maxNumeralDigits < digits.length then .error .intParsingSize
  else .ok (signed negative (digitsValue (digits.map (·.toNat - 48))))

/-- The integer that a text spells. -/
def readSpelledInteger (text : String) : Field Int :=
  let s := trimOf isWhiteSpace text.toList
  let unsigned :=
    match s with
    | '+' :: '-' :: _ => none
    | '+' :: rest => some rest
    | s => some s
  match unsigned.bind dropLeadingZeros with
  | some s => readPlainInteger (dropGaps (dropZeroPlaces s))
  | none => .error .intParsing

/-- The greatest magnitude of an integer that a floating point number may stand for. -/
def maxWhole : Int := 2 ^ (63 : Nat)

/-- The integer that a floating point number stands for. -/
def wholeField (x : Binary64) : Field Int :=
  match x.truncate? with
  | none => .error .finiteNumber
  | some i =>
    if !x.isIntegral then .error .intFromFloat
    else if -maxWhole < i && i < maxWhole then .ok i
    else .error .intParsingSize

/-- The value of an integer setting. -/
def readIntegerField (v : Value) : Field Int := do
  match v, ← spelling .intParsing v with
  | _, some s => readSpelledInteger s
  | .integer i, none => return i
  | .bool b, none => return if b then 1 else 0
  | .float x, none => wholeField x
  | _, none => throw .intType

/-! ## Floating point numbers -/

/-- The floating point number that a text spells. -/
def readSpelledFloat (text : String) : Field Binary64 :=
  let plain (s : List Char) := readPlainFloat? (trimOf isWhiteSpace s)
  match plain text.toList <|> plain (dropGaps text.toList) with
  | some x => .ok x
  | none => .error .floatParsing

/-- The value of a floating point setting. An integer beyond its range is not admitted. -/
def readFloatField (v : Value) : Field Binary64 := do
  match v, ← spelling .floatParsing v with
  | _, some s => readSpelledFloat s
  | .float x, none => return x
  | .integer i, none =>
    let x := Binary64.ofInt i
    if x.isFinite then return x else throw .floatType
  | .bool b, none => return .ofInt (if b then 1 else 0)
  | _, none => throw .floatType

/-! ## Truth values -/

/-- The truth value that a text spells. -/
def readSpelledBool (text : String) : Field Bool :=
  let word := String.ofList (lowerAscii text.toList)
  if ["1", "t", "y", "on", "yes", "true"].contains word then .ok true
  else if ["0", "f", "n", "no", "off", "false"].contains word then .ok false
  else .error .boolParsing

/-- The truth value that an integer stands for. -/
def truthOf (i : Int) : Field Bool :=
  if i = 1 then .ok true
  else if i = 0 then .ok false
  else .error .boolParsing

/-- The value of a setting that is true or false. -/
def readBoolField (v : Value) : Field Bool := do
  match v, ← spelling .boolParsing v with
  | _, some s => readSpelledBool s
  | .bool b, none => return b
  | .integer i, none => if -maxWhole ≤ i && i < maxWhole then truthOf i else throw .boolType
  | .float x, none =>
    match wholeField x with
    | .ok i => truthOf i
    | .error _ => throw .boolType
  | _, none => throw .boolType

/-! ## Texts -/

/-- The value of a text setting. -/
def readTextField (v : Value) : Field String := do
  match ← spelling .stringUnicode v with
  | some s => return s
  | none => throw .stringType

/-- The value of a path setting. Bytes are no path. -/
def readPathField (v : Value) : Field Path :=
  match v.text? with
  | some s => .ok (.read s)
  | none => .error .pathType

/-- Texts, or the issues of those that are none, with their positions from `position` on. -/
def readTexts : Nat → List Value → Except (List Issue) (List String)
  | _, [] => .ok []
  | position, v :: rest =>
    match readTextField v, readTexts (position + 1) rest with
    | .ok s, .ok texts => .ok (s :: texts)
    | .ok _, .error issues => .error issues
    | .error kind, .ok _ => .error [⟨[toString position], kind⟩]
    | .error kind, .error issues => .error (⟨[toString position], kind⟩ :: issues)

/-- The items of a value that has some. A mapping has none. -/
def itemsOf? : Value → Option (List Value)
  | .sequence items => some items
  | .set members => some members
  | _ => none

/-- The value of a setting that is a list of texts. -/
def readTextsField (v : Value) : Except (List Issue) (List String) :=
  match itemsOf? v with
  | some items => readTexts 0 items
  | none => .error [⟨[], .listType⟩]

/-! ## Missing values -/

/-- A value that may be missing. -/
def optionalField {α ε : Type} (read : Value → Except ε α) : Value → Except ε (Option α)
  | .null => .ok none
  | v => some <$> read v

/-- A value that may be missing, as it is written. -/
def orNull {α : Type} (write : α → Value) : Option α → Value
  | none => .null
  | some a => write a

/-- The issue of a value as a whole. -/
def wholeIssue {α : Type} (read : Value → Field α) (v : Value) : Except (List Issue) α :=
  (read v).mapError fun kind => [⟨[], kind⟩]

end MemoryLimit
