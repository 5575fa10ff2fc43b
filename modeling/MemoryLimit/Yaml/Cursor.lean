import MemoryLimit.Text.Digit

/-!
# Places in a document

A document is read from left to right. Its structure depends on columns and lines, so a place knows
where it stands.

## Main definitions

* `Cursor` — a place in a document.
* `Cursor.skip`, `Cursor.takeWhile`, `Cursor.takeBreak?` — the ways to move on.
* `foldBreaks` — what the line ends inside a scalar stand for.
-/
namespace MemoryLimit.Yaml

/-- The character that stands for the end of a document; no document has it. -/
def endMark : Char := '\x00'

/-- A character that ends a line. -/
def isBreak (c : Char) : Bool :=
  c = '\n' || c = '\r' || c = '\x85' || c = '\u2028' || c = '\u2029'

/-- A character that ends a line, or the end of the document. -/
def endsLine (c : Char) : Bool :=
  isBreak c || c = endMark

/-- A space, or what ends a line. -/
def endsField (c : Char) : Bool :=
  c = ' ' || endsLine c

/-- A space, a tabulator, or what ends a line. -/
def endsWord (c : Char) : Bool :=
  c = '\t' || endsField c

/-- A character of the names of anchors and directives. -/
def isNameCharacter (c : Char) : Bool :=
  c.isAlphanum || c = '-' || c = '_'

/-- A place in a document: what follows it, and how many characters, lines, and characters of its line
come before it. -/
structure Cursor where
  rest : List Char
  index : Nat := 0
  line : Nat := 0
  column : Nat := 0
deriving DecidableEq, Repr, Inhabited

namespace Cursor

/-- The character at the place. -/
def peek (c : Cursor) : Char :=
  c.rest.headD endMark

/-- The character so many places further on. -/
def peekAt (c : Cursor) (n : Nat) : Char :=
  (c.rest.drop n).headD endMark

/-- The place behind the next character. A byte order mark takes no column. -/
def skip (c : Cursor) : Cursor :=
  match c.rest with
  | [] => c
  | x :: rest =>
    if isBreak x && !(x = '\r' && rest.head? = some '\n') then ⟨rest, c.index + 1, c.line + 1, 0⟩
    else ⟨rest, c.index + 1, c.line, if x = '\uFEFF' then c.column else c.column + 1⟩

/-- The place behind the next characters. -/
def skipMany : Nat → Cursor → Cursor
  | 0, c => c
  | n + 1, c => skipMany n c.skip

/-- The next characters of a class, and the place behind them. -/
def takeWhile (p : Char → Bool) (c : Cursor) : List Char × Cursor :=
  let taken := c.rest.takeWhile p
  (taken, c.skipMany taken.length)

/-- The place behind the next characters of a class. -/
def dropWhile (p : Char → Bool) (c : Cursor) : Cursor :=
  (c.takeWhile p).2

/-- The line end at the place, if there is one, and the place behind it. The two separators of Unicode
stand for themselves, and all other line ends are one line feed. -/
def takeBreak? (c : Cursor) : Option (Char × Cursor) :=
  match c.rest with
  | '\r' :: '\n' :: _ => some ('\n', c.skipMany 2)
  | x :: _ =>
    if x = '\u2028' || x = '\u2029' then some (x, c.skip)
    else if isBreak x then some ('\n', c.skip)
    else none
  | [] => none

/-- The value of exactly `n` hexadecimal digits at the place, and the place behind them. -/
def takeHex? (n : Nat) (c : Cursor) : Option (Nat × Cursor) :=
  let digits := c.rest.take n
  if digits.length = n then (Text.hexNumber? digits).map (·, c.skipMany n) else none

/-- The place behind a line end, if there is one. -/
def skipBreak (c : Cursor) : Cursor :=
  match c.takeBreak? with
  | some (_, after) => after
  | none => c

/-- The place behind a comment, if there is one. -/
def skipComment (c : Cursor) : Cursor :=
  if c.peek = '#' then c.dropWhile (!endsLine ·) else c

/-- Whether three characters that mark the limit of a document stand here as a word. -/
def atWord (marker : String) (c : Cursor) : Bool :=
  c.rest.take 3 = marker.toList && endsWord (c.peekAt 3)

/-- Whether a limit of a document stands here. -/
def atLimit (c : Cursor) : Bool :=
  c.atWord "---" || c.atWord "..."

end Cursor

/-- What the line ends in a scalar stand for: a single line feed for a space, and others for themselves
but for a line feed at their front. -/
def foldBreaks (first : Char) (more : List Char) : List Char :=
  if first ≠ '\n' then first :: more
  else if more.isEmpty then [' ']
  else more

end MemoryLimit.Yaml
