import MemoryLimit.Text.Printable

/-!
# Quoted text

Messages show a text between quotes, on one line and without unprintable characters, so that blanks
at its ends and control characters are visible. Single quotes are used unless the text holds single
quotes and no double ones.

## Main definitions

* `escape` — one character as it stands between quotes.
* `quote` — a text in quotes.
* `cut` — the first characters of a text, for messages that bound the length of what they show.
-/
namespace MemoryLimit.Text

/-- The lower-case hexadecimal digits of a number, padded with zeros to a width. -/
def hexPadded (width n : Nat) : List Char :=
  let digits := Nat.toDigits 16 n
  List.replicate (width - digits.length) '0' ++ digits

/-- One character as it stands between two marks: the mark and the backslash are escaped by a
backslash, and an unprintable character by its code point. -/
def escape (mark c : Char) : List Char :=
  if c = mark || c = '\\' then ['\\', c]
  else if c = '\n' then ['\\', 'n']
  else if c = '\r' then ['\\', 'r']
  else if c = '\t' then ['\\', 't']
  else if isPrintable c then [c]
  else if c.toNat < 0x100 then '\\' :: 'x' :: hexPadded 2 c.toNat
  else if c.toNat < 0x10000 then '\\' :: 'u' :: hexPadded 4 c.toNat
  else '\\' :: 'U' :: hexPadded 8 c.toNat

/-- The mark that a text is quoted with. -/
def quoteMark (s : List Char) : Char :=
  if s.contains '\'' && !s.contains '"' then '"' else '\''

/-- A text in quotes. -/
def quote (s : List Char) : List Char :=
  let mark := quoteMark s
  mark :: s.flatMap (escape mark) ++ [mark]

/-- A string in quotes. -/
def quoted (s : String) : String :=
  String.ofList (quote s.toList)

/-- The first characters of a string. -/
def cut (limit : Nat) (s : String) : String :=
  String.ofList (s.toList.take limit)

/-- Strings in quotes, between brackets. -/
def quotedList (xs : List String) : String :=
  "[" ++ String.intercalate ", " (xs.map quoted) ++ "]"

end MemoryLimit.Text
