import MemoryLimit.Yaml.Cursor

/-!
# Plain scalars

A plain scalar has no marks around it. It ends at a colon or a comment, and it may go on in lines that
are indented further than the collection it stands in.

## Main definitions

* `startsPlain` — whether a plain scalar begins at a place.
* `takePlain` — reads a plain scalar.
-/
namespace MemoryLimit.Yaml

/-- Whether a plain scalar begins at a place. A dash may begin one if something follows it, and outside
flow collections so may a question mark and a colon. -/
def startsPlain (inFlow : Bool) (c : Cursor) : Bool :=
  let x := c.peek
  let indicators := "-?:,[]\x7b\x7d#&*!|>'\"%@\x60".toList
  !(endsWord x || indicators.contains x) ||
    (!endsWord (c.peekAt 1) && (x = '-' || (!inFlow && (x = '?' || x = ':'))))

/-- Whether a plain scalar ends before the first of some characters. -/
def endsPlain (inFlow : Bool) : List Char → Bool
  | [] => true
  | x :: rest =>
    let next := rest.headD endMark
    endsWord x ||
      (x = ':' && (endsWord next || (inFlow && ",[]\x7b\x7d".toList.contains next))) ||
      (inFlow && ",?[]\x7b\x7d".toList.contains x)

/-- The characters of a plain scalar up to a place where it may end. -/
def takePlainWord (inFlow : Bool) : List Char → List Char
  | [] => []
  | x :: rest => if endsPlain inFlow (x :: rest) then [] else x :: takePlainWord inFlow rest

/-- The line ends between two lines of a plain scalar, behind the first one. Nothing if the document
ends there. -/
def takePlainBreaks : Nat → Cursor → Option (List Char) × Cursor
  | 0, c => (some [], c)
  | fuel + 1, c =>
    let c := c.dropWhile (· = ' ')
    match c.takeBreak? with
    | none => (some [], c)
    | some (x, after) =>
      if after.atLimit then (none, after)
      else
        let (more, after) := takePlainBreaks fuel after
        (more.map (x :: ·), after)

/-- What stands between two words of a plain scalar: its meaning, the place behind it, and whether a
line ended. Nothing if the scalar cannot go on there. -/
def takePlainGap (c : Cursor) : Option (List Char) × Cursor × Bool :=
  let (spaces, c) := c.takeWhile (· = ' ')
  match c.takeBreak? with
  | none => (if spaces.isEmpty then none else some spaces, c, false)
  | some (x, after) =>
    if after.atLimit then (none, after, true)
    else
      let (more, after) := takePlainBreaks (after.rest.length + 1) after
      (more.map (foldBreaks x), after, true)

/-- The words of a plain scalar, each with the gap before it. `indent` is the column from which on the
scalar goes on in another line. The answer says whether a line ended behind the scalar. -/
def takePlainWords (inFlow : Bool) (indent : Nat) : Nat → List Char → Bool → Cursor →
    List Char × Cursor × Bool
  | 0, _, broken, c => ([], c, broken)
  | fuel + 1, gap, broken, c =>
    let word := takePlainWord inFlow c.rest
    if word.isEmpty then ([], c, broken)
    else
      match takePlainGap (c.skipMany word.length) with
      | (none, after, broken) => (gap ++ word, after, broken)
      | (some next, after, broken) =>
        if after.peek = '#' || (!inFlow && after.column < indent) then (gap ++ word, after, broken)
        else
          let (more, after, broken) := takePlainWords inFlow indent fuel next broken after
          (gap ++ word ++ more, after, broken)

/-- A plain scalar, the place behind it, and whether a line ended behind it. -/
def takePlain (inFlow : Bool) (indent : Nat) (c : Cursor) : List Char × Cursor × Bool :=
  takePlainWords inFlow indent (c.rest.length + 1) [] false c

end MemoryLimit.Yaml
