import MemoryLimit.Text.Digit
import MemoryLimit.Yaml.Moment

/-!
# Tags

A tag says what kind of value a node has. A plain scalar without a tag gets one by its form: words for
true, false and nothing, numerals, dates; what has no such form is a text.

## Main definitions

* `Tag` — the names of the tags.
* `isIntegerForm`, `isFloatForm` — the forms of numerals.
* `plainTag` — the tag that a plain scalar gets.
-/
namespace MemoryLimit.Yaml

namespace Tag

/-- What the names of the tags begin with. -/
def space : String := "tag:yaml.org,2002:"

/-- Nothing. -/
def null : String := space ++ "null"
/-- True and false. -/
def bool : String := space ++ "bool"
/-- Integers. -/
def integer : String := space ++ "int"
/-- Floating point numbers. -/
def float : String := space ++ "float"
/-- Bytes. -/
def binary : String := space ++ "binary"
/-- Dates. -/
def moment : String := space ++ "timestamp"
/-- Texts. -/
def text : String := space ++ "str"
/-- Sequences. -/
def sequence : String := space ++ "seq"
/-- Mappings. -/
def mapping : String := space ++ "map"
/-- Sets. -/
def set : String := space ++ "set"
/-- Sequences of pairs, each of them a mapping, that stand for a mapping with an order. -/
def ordered : String := space ++ "omap"
/-- Sequences of pairs, each of them a mapping. -/
def pairs : String := space ++ "pairs"
/-- The key whose value is merged into the mapping around it. -/
def merge : String := space ++ "merge"
/-- The key whose value stands for the mapping around it. -/
def value : String := space ++ "value"
/-- The tag of the characters that begin tags, anchors and aliases. No value has it. -/
def indicator : String := space ++ "yaml"
/-- The tag that asks for the kind of value that the form suggests. -/
def unspecified : String := "!"

end Tag

/-- A digit or an underscore. -/
private def isDigitOrGap (c : Char) : Bool :=
  c.isDigit || c = '_'

/-- A text without a sign at its front. -/
def dropSign : List Char → List Char
  | '+' :: rest => rest
  | '-' :: rest => rest
  | s => s

/-- What follows a digit, other digits and underscores at the front of a text. -/
private def dropDigits? : List Char → Option (List Char)
  | c :: rest => if c.isDigit then some (rest.dropWhile isDigitOrGap) else none
  | [] => none

/-- What follows a number below sixty. -/
private def dropSixtieth? : List Char → Option (List Char)
  | a :: b :: rest =>
    if a.isDigit && a < '6' && b.isDigit then some rest
    else if a.isDigit then some (b :: rest)
    else none
  | [a] => if a.isDigit then some [] else none
  | [] => none

/-- What follows numbers below sixty, each behind a colon. -/
def dropSixtieths : Nat → List Char → List Char
  | 0, s => s
  | fuel + 1, s =>
    match s with
    | ':' :: rest =>
      match dropSixtieth? rest with
      | some after => dropSixtieths fuel after
      | none => s
    | _ => s

/-- Whether a text is an exponent with its sign, or empty. -/
private def isExponent : List Char → Bool
  | [] => true
  | e :: sign :: digits =>
    (e = 'e' || e = 'E') && (sign = '+' || sign = '-') && !digits.isEmpty && digits.all Char.isDigit
  | _ => false

/-- Whether a text consists of characters of a class, at least one of them. -/
private def consistsOf (p : Char → Bool) (s : List Char) : Bool :=
  !s.isEmpty && s.all p

/-- Whether a text has the form of an integer: binary, octal, decimal, hexadecimal or to the base
sixty. -/
def isIntegerForm (text : List Char) : Bool :=
  match dropSign text with
  | ['0'] => true
  | '0' :: 'b' :: digits => consistsOf (fun c => c = '0' || c = '1' || c = '_') digits
  | '0' :: 'x' :: digits => consistsOf (fun c => (Text.hexValue? c).isSome || c = '_') digits
  | '0' :: digits => consistsOf (fun c => ('0' ≤ c && c ≤ '7') || c = '_') digits
  | s =>
    match dropDigits? s with
    | some rest => (dropSixtieths rest.length rest).isEmpty
    | none => false

/-- Whether a text has the form of a floating point number: with a point, or infinite, or none. -/
def isFloatForm (text : List Char) : Bool :=
  let unsigned := dropSign text
  let name := String.ofList unsigned
  name = ".inf" || name = ".Inf" || name = ".INF" ||
    (text = unsigned && (name = ".nan" || name = ".NaN" || name = ".NAN")) ||
    match unsigned with
    | '.' :: places =>
      text = unsigned && (dropDigits? places).any isExponent
    | _ =>
      match dropDigits? unsigned with
      | some ('.' :: places) => isExponent (places.dropWhile isDigitOrGap)
      | some (':' :: rest) =>
        match dropSixtieths (rest.length + 1) (':' :: rest) with
        | '.' :: places => places.all isDigitOrGap
        | _ => false
      | _ => false

/-- The words for true and false. -/
def truthWords : List String :=
  ["yes", "Yes", "YES", "no", "No", "NO", "true", "True", "TRUE", "false", "False", "FALSE",
    "on", "On", "ON", "off", "Off", "OFF"]

/-- The words for nothing. -/
def nullWords : List String :=
  ["", "~", "null", "Null", "NULL"]

/-- The tag that a form stands for. -/
def formTag (text : String) : String :=
  if truthWords.contains text then Tag.bool
  else if isFloatForm text.toList then Tag.float
  else if isIntegerForm text.toList then Tag.integer
  else if text = "<<" then Tag.merge
  else if nullWords.contains text then Tag.null
  else if Moment.isRecognized text then Tag.moment
  else if text = "=" then Tag.value
  else if ["!", "&", "*"].contains text then Tag.indicator
  else Tag.text

/-- The tag that a plain scalar gets by its form. A line feed at the end is no part of the form, unless
there is nothing else. -/
def plainTag (text : String) : String :=
  if text = "\n" then Tag.text else formTag (String.ofList (Text.dropFinalBreak text.toList))

end MemoryLimit.Yaml
