/-!
# Lines

Ten characters end a line, and the pair of carriage return and line feed ends one line, not two.
Text read from a file has its carriage returns folded into line feeds first.

## Main definitions

* `isLineEnd` — the characters that end a line.
* `splitLines` — the lines of a text without their ends; a final line end opens no further line.
* `foldReturns` — every carriage return, alone or before a line feed, becomes one line feed.
* `dropFinalBreak` — a text without the line feed at its end.
-/
namespace MemoryLimit.Text

/-- A character that ends a line. -/
def isLineEnd (c : Char) : Bool :=
  let n := c.toNat
  (10 ≤ n && n ≤ 13) || (28 ≤ n && n ≤ 30) || n == 0x85 || n == 0x2028 || n == 0x2029

/-- The lines of a text; `line` is the line under construction, reversed. -/
def splitLinesFrom : List Char → List Char → List (List Char)
  | [], [] => []
  | [], line => [line.reverse]
  | '\r' :: '\n' :: rest, line => line.reverse :: splitLinesFrom rest []
  | c :: rest, line =>
    if isLineEnd c then line.reverse :: splitLinesFrom rest [] else splitLinesFrom rest (c :: line)

/-- The lines of a text, without the characters that end them. -/
def splitLines (s : List Char) : List (List Char) :=
  splitLinesFrom s []

/-- One line feed for every line feed, carriage return, or pair of the two in this order. -/
def foldReturns : List Char → List Char
  | [] => []
  | '\r' :: '\n' :: rest => '\n' :: foldReturns rest
  | c :: rest => (if c = '\r' then '\n' else c) :: foldReturns rest

/-- A text without the line feed at its end, if it has one. -/
def dropFinalBreak (s : List Char) : List Char :=
  if s.getLast? = some '\n' then s.dropLast else s

end MemoryLimit.Text
