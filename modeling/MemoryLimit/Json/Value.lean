import MemoryLimit.Binary64.Shortest
import MemoryLimit.Numeral.Integer
import MemoryLimit.Text.Raw
import MemoryLimit.Text.Raw

/-!
# JSON values

## Main definitions

* `Json` — a JSON value. Integers are exact, and members keep their order.
* `Json.render` — the text of a value on one line, with all characters beyond ASCII escaped.
* `Json.write` — the same, unless an integer is too long for a numeral.
* `Json.member?` — the last member of a name.
-/
namespace MemoryLimit

open Text

/-- A JSON value. -/
inductive Json where
  | null
  | bool (value : Bool)
  | integer (value : Int)
  | float (value : Binary64)
  | string (value : RawText)
  | array (items : List Json)
  | object (members : List (String × Json))
deriving Repr, Inhabited

namespace Json

/-- The member of an object with a name; of several, the last. -/
def member? (name : String) : Json → Option Json
  | object members => (members.reverse.find? (·.1 = name)).map (·.2)
  | _ => none

/-- A code unit of sixteen bits as an escape. -/
def escapeUnit (n : Nat) : List Char :=
  '\\' :: 'u' :: hexPadded 4 n

/-- One character between the quotes of a JSON string. -/
def escape (c : Char) : List Char :=
  if c = '"' || c = '\\' then ['\\', c]
  else if c = '\n' then ['\\', 'n']
  else if c = '\r' then ['\\', 'r']
  else if c = '\t' then ['\\', 't']
  else if c.toNat = 8 then ['\\', 'b']
  else if c.toNat = 12 then ['\\', 'f']
  else if 32 ≤ c.toNat && c.toNat ≤ 126 then [c]
  else if c.toNat < 0x10000 then escapeUnit c.toNat
  else
    let n := c.toNat - 0x10000
    escapeUnit (0xd800 + n / 0x400) ++ escapeUnit (0xdc00 + n % 0x400)

/-- One code point between the quotes of a JSON string. -/
def escapePoint : CodePoint → List Char
  | .char c => escape c
  | .half offset => CodePoint.spelled offset

/-- A JSON string. -/
def renderString (s : RawText) : String :=
  String.ofList ('"' :: s.points.flatMap escapePoint ++ ['"'])

/-- A floating point number; the values that JSON has no numerals for are named. -/
def renderFloat : Binary64 → String
  | .nan => "NaN"
  | .infinity negative => if negative then "-Infinity" else "Infinity"
  | x => x.text

mutual
/-- The text of a value, with a blank after each comma and colon. -/
def render : Json → String
  | null => "null"
  | bool b => if b then "true" else "false"
  | integer i => integerText i
  | float x => renderFloat x
  | string s => renderString s
  | array items => "[" ++ String.intercalate ", " (renderItems items) ++ "]"
  | object members => "\x7b" ++ String.intercalate ", " (renderMembers members) ++ "\x7d"

/-- The texts of the items of an array. -/
def renderItems : List Json → List String
  | [] => []
  | item :: rest => render item :: renderItems rest

/-- The texts of the members of an object. -/
def renderMembers : List (String × Json) → List String
  | [] => []
  | (name, value) :: rest => (renderString name ++ ": " ++ render value) :: renderMembers rest
end

mutual
/-- Whether no integer of a value is longer than a numeral may be. -/
def isWritable : Json → Bool
  | integer i => digitCount i.natAbs ≤ maxNumeralDigits
  | array items => areWritable items
  | object members => haveWritable members
  | _ => true

/-- Whether no integer of the items of an array is too long. -/
def areWritable : List Json → Bool
  | [] => true
  | item :: rest => isWritable item && areWritable rest

/-- Whether no integer of the members of an object is too long. -/
def haveWritable : List (String × Json) → Bool
  | [] => true
  | (_, value) :: rest => isWritable value && haveWritable rest
end

/-- The text of a value on one line, unless an integer is too long. -/
def write (j : Json) : Except NumeralError String :=
  if j.isWritable then .ok j.render else .error .tooLongToWrite

end Json

end MemoryLimit
