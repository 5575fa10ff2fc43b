import MemoryLimit.Yaml.Cursor
import MemoryLimit.Yaml.Fault

/-!
# Quoted scalars

Between single quotes, two of them stand for one, and nothing else is special. Between double quotes a
backslash begins an escape. In both, a line end and the blanks around it stand for a space.

## Main definitions

* `takeQuoted` — reads a quoted scalar.
-/
namespace MemoryLimit.Yaml

/-- The character that an escape of one letter stands for. -/
def escaped? : Char → Option Char
  | '0' => some '\x00'
  | 'a' => some '\x07'
  | 'b' => some '\x08'
  | 't' => some '\t'
  | '\t' => some '\t'
  | 'n' => some '\n'
  | 'v' => some '\x0b'
  | 'f' => some '\x0c'
  | 'r' => some '\r'
  | 'e' => some '\x1b'
  | ' ' => some ' '
  | '"' => some '"'
  | '\\' => some '\\'
  | '/' => some '/'
  | 'N' => some '\x85'
  | '_' => some '\xa0'
  | 'L' => some '\u2028'
  | 'P' => some '\u2029'
  | _ => none

/-- The number of hexadecimal digits that follow a letter. -/
def escapeLength? : Char → Option Nat
  | 'x' => some 2
  | 'u' => some 4
  | 'U' => some 8
  | _ => none

/-- The character of a number. A surrogate stands for no character and becomes the replacement
character. -/
def characterOf (code : Nat) : Except Fault Char :=
  if 0x110000 ≤ code then .error (.noCharacter code)
  else if 0xd800 ≤ code && code < 0xe000 then .ok '\uFFFD'
  else .ok (Char.ofNat code)

/-- The line ends behind the first one, inside a quoted scalar, and the place behind them and the blanks
that follow. No document may end there. -/
def takeQuotedBreaks : Nat → Cursor → Except Fault (List Char × Cursor)
  | 0, _ => .error .malformed
  | fuel + 1, c => do
    if c.atLimit then throw .malformed
    let c := c.dropWhile fun x => x = ' ' || x = '\t'
    match c.takeBreak? with
    | none => return ([], c)
    | some (x, after) =>
      let (more, after) ← takeQuotedBreaks fuel after
      return (x :: more, after)

/-- What an escape stands for, behind its backslash. -/
def takeEscape (c : Cursor) : Except Fault (List Char × Cursor) :=
  match escaped? c.peek, escapeLength? c.peek, c.takeBreak? with
  | some x, _, _ => .ok ([x], c.skip)
  | none, some n, _ =>
    match c.skip.takeHex? n with
    | some (code, after) => do return ([← characterOf code], after)
    | none => .error .malformed
  | none, none, some (_, after) => takeQuotedBreaks (after.rest.length + 1) after
  | none, none, none => .error .malformed

/-- The blanks and line ends at a place inside a quoted scalar. -/
def takeQuotedGap (c : Cursor) : Except Fault (List Char × Cursor) :=
  let (blanks, c) := c.takeWhile fun x => x = ' ' || x = '\t'
  match c.takeBreak? with
  | none => .ok (blanks, c)
  | some (x, after) => do
    let (more, after) ← takeQuotedBreaks (after.rest.length + 1) after
    return (foldBreaks x more, after)

/-- The characters up to the closing quote. -/
def takeQuotedRest (double : Bool) : Nat → Cursor → Except Fault (List Char × Cursor)
  | 0, _ => .error .malformed
  | fuel + 1, c =>
    match c.rest with
    | [] => .error .malformed
    | x :: rest =>
      if x = (if double then '"' else '\'') then
        if !double && rest.head? = some '\'' then before ['\''] fuel (c.skipMany 2)
        else .ok ([], c.skip)
      else if double && x = '\\' then do
        let (text, after) ← takeEscape c.skip
        before text fuel after
      else if x = ' ' || x = '\t' || isBreak x then do
        let (text, after) ← takeQuotedGap c
        before text fuel after
      else before [x] fuel c.skip
where
  /-- Puts a text before what is still to be read. -/
  before (text : List Char) (fuel : Nat) (c : Cursor) : Except Fault (List Char × Cursor) := do
    let (more, after) ← takeQuotedRest double fuel c
    return (text ++ more, after)

/-- A quoted scalar, and the place behind it. -/
def takeQuoted (c : Cursor) : Except Fault (List Char × Cursor) :=
  takeQuotedRest (c.peek = '"') (c.rest.length + 1) c.skip

end MemoryLimit.Yaml
