import MemoryLimit.Yaml.Cursor
import MemoryLimit.Yaml.Fault

/-!
# Block scalars

A block scalar is a run of indented lines. A literal one keeps its line ends; in a folded one, a line
end between two lines that begin with no blank stands for a space. Its header says how deep the lines
are indented, if the first of them does not, and what becomes of the line ends at its end.

## Main definitions

* `BlockHeader` — the header of a block scalar.
* `takeBlock` — reads a block scalar.
-/
namespace MemoryLimit.Yaml

/-- What becomes of the line ends at the end of a block scalar. -/
inductive Chomping where
  /-- The first one is kept. -/
  | clip
  /-- None is kept. -/
  | strip
  /-- All are kept. -/
  | keep
deriving DecidableEq, Repr

/-- The header of a block scalar: what becomes of the line ends at its end, and how much deeper than its
surroundings it is indented, if it says so. -/
structure BlockHeader where
  chomping : Chomping := .clip
  increment : Option Nat := none
deriving DecidableEq, Repr

/-- The chomping that a character asks for. -/
def chomping? : Char → Option Chomping
  | '+' => some .keep
  | '-' => some .strip
  | _ => none

/-- The increment that a character asks for, if it is a digit. It must not be zero. -/
def takeIncrement (c : Cursor) : Except Fault (Option Nat × Cursor) :=
  if c.peek.isDigit then
    if c.peek = '0' then .error .malformed else .ok (some (c.peek.toNat - 48), c.skip)
  else .ok (none, c)

/-- The header of a block scalar, up to the end of its line. -/
def takeBlockHeader (c : Cursor) : Except Fault (BlockHeader × Cursor) := do
  let (header, c) ←
    match chomping? c.peek with
    | some chomping => do
      let (increment, after) ← takeIncrement c.skip
      pure (BlockHeader.mk chomping increment, after)
    | none => do
      let (increment, after) ← takeIncrement c
      match increment.bind fun _ => chomping? after.peek with
      | some chomping => pure (BlockHeader.mk chomping increment, after.skip)
      | none => pure (BlockHeader.mk .clip increment, after)
  if !endsField c.peek then throw .malformed
  let c := (c.dropWhile (· = ' ')).skipComment
  if !endsLine c.peek then throw .malformed
  return (header, c.skipBreak)

/-- The line ends before the first line of a block scalar, and the deepest column of the spaces among
them. -/
def takeLeadingBreaks : Nat → Nat → Cursor → List Char × Nat × Cursor
  | 0, deepest, c => ([], deepest, c)
  | fuel + 1, deepest, c =>
    let c := c.dropWhile (· = ' ')
    let deepest := max deepest c.column
    match c.takeBreak? with
    | none => ([], deepest, c)
    | some (x, after) =>
      let (more, deepest, after) := takeLeadingBreaks fuel deepest after
      (x :: more, deepest, after)

/-- The place behind the spaces that indent a line, of which there are at most `indent`. -/
def skipIndent (indent : Nat) (c : Cursor) : Cursor :=
  c.skipMany ((c.rest.take (indent - c.column)).takeWhile (· = ' ')).length

/-- The line ends between two lines of a block scalar, and the place where the next line may begin. -/
def takeBlockBreaks (indent : Nat) : Nat → Cursor → List Char × Cursor
  | 0, c => ([], c)
  | fuel + 1, c =>
    let c := skipIndent indent c
    match c.takeBreak? with
    | none => ([], c)
    | some (x, after) =>
      let (more, after) := takeBlockBreaks indent fuel after
      (x :: more, after)

/-- Whether a line of a block scalar begins at a place. -/
def startsBlockLine (indent : Nat) (c : Cursor) : Bool :=
  c.column = indent && !c.rest.isEmpty

/-- What the line end between two lines of a block scalar stands for, given whether the lines begin with
a blank and whether empty lines stand between them. -/
def joinLines (folded blankBefore blankAfter : Bool) (lineEnd : Option Char)
    (breaks : List Char) : List Char :=
  if folded && lineEnd = some '\n' && !blankBefore && !blankAfter then
    if breaks.isEmpty then [' '] else []
  else lineEnd.toList

/-- A space or a tabulator. -/
def isBlockBlank (c : Char) : Bool :=
  c = ' ' || c = '\t'

/-- The lines of a block scalar from a place on, after the given line ends. The answer has their text,
the last line end, if there is one, and the line ends behind it. -/
def takeBlockLines (folded : Bool) (indent : Nat) : Nat → List Char → Cursor →
    List Char × Option Char × List Char × Cursor
  | 0, breaks, c => ([], none, breaks, c)
  | fuel + 1, breaks, c =>
    if startsBlockLine indent c then
      let (line, c') := c.takeWhile (!endsLine ·)
      let (lineEnd, c') :=
        match c'.takeBreak? with
        | some (x, after) => (some x, after)
        | none => (none, c')
      let (next, c') := takeBlockBreaks indent (c'.rest.length + 1) c'
      if startsBlockLine indent c' then
        let join := joinLines folded (isBlockBlank c.peek) (isBlockBlank c'.peek) lineEnd next
        let (text, last, tail, after) := takeBlockLines folded indent fuel next c'
        (breaks ++ line ++ join ++ text, last, tail, after)
      else (breaks ++ line, lineEnd, next, c')
    else ([], none, breaks, c)

/-- A block scalar, and the place behind it. `minimum` is the least column that it may be indented to. -/
def takeBlock (minimum : Nat) (c : Cursor) : Except Fault (List Char × Cursor) := do
  let folded := c.peek = '>'
  let (header, c) ← takeBlockHeader c.skip
  let (breaks, indent, c) :=
    match header.increment with
    | none =>
      let (breaks, deepest, c) := takeLeadingBreaks (c.rest.length + 1) 0 c
      (breaks, max minimum deepest, c)
    | some n =>
      let indent := minimum + n - 1
      let (breaks, c) := takeBlockBreaks indent (c.rest.length + 1) c
      (breaks, indent, c)
  let (text, last, tail, c) := takeBlockLines folded indent (c.rest.length + 1) breaks c
  match header.chomping with
  | .strip => return (text, c)
  | .clip => return (text ++ last.toList, c)
  | .keep => return (text ++ last.toList ++ tail, c)

end MemoryLimit.Yaml
