import MemoryLimit.Failure
import MemoryLimit.Text.Blank
import MemoryLimit.Text.Line
import MemoryLimit.Usage.Record

/-!
# Usage lines

A record is written on one line: the workload's name, and its four figures with blanks between them.
The name may hold blanks itself, because the figures are read from the right. A name that would not
be read back is refused: an empty one, one with blanks at an end or with a line end, and one that
begins with the mark of a comment. Halves of surrogate pairs are no blanks and end no lines, so a name
with halves is not refused, although its line has no bytes.

## Main definitions

* `isStorable` — the names that are not refused.
* `writeLine`, `readLine` — a record with its name as a line, and back.
* `isIgnored` — blank lines and comments.
-/
namespace MemoryLimit

open Text

/-- Whether a workload's name can stand at the beginning of a line. -/
def isStorable (id : RawText) : Bool :=
  let s := id.shown
  !s.isEmpty && s == trim s && s.head? != some '#' && (splitLines s).length == 1

/-- An integer as a field of a line. -/
def integerField (i : Int) : Except Failure String :=
  (writeInteger i).mapError fun fault => .invalid (.numeral fault)

/-- A record with its workload's name, as a line without its end. -/
def writeLine (id : RawText) (usage : Usage) : Except Failure RawText :=
  if isStorable id then do
    let exitCode ← integerField usage.exitCode
    let limit ← integerField usage.limit
    let figures := String.intercalate " "
      [exitCode, usage.cpuSeconds.text, usage.wallSeconds.text, limit]
    return id ++ RawText.ofString (" " ++ figures)
  else .error (.storeFormat (.unstorableId id))

/-- The four figures of a record, read from the texts of its fields. -/
def readFigures (exitCode cpu wall limit : List Char) : Except FieldFault Usage := do
  let exitCode ← (readInteger (String.ofList exitCode)).mapError .integer
  let cpu ← (readDecimal (String.ofList cpu)).mapError .decimal
  let wall ← (readDecimal (String.ofList wall)).mapError .decimal
  let limit ← (readInteger (String.ofList limit)).mapError .integer
  return ⟨exitCode, cpu, wall, limit⟩

/-- The record of a line and its workload's name. -/
def readLine (line : String) : Except Failure (RawText × Usage) :=
  match lastWords 4 line.toList with
  | [id, exitCode, cpu, wall, limit] =>
    match readFigures exitCode cpu wall limit with
    | .ok usage => .ok (String.ofList id, usage)
    | .error fault => .error (.storeFormat (.badField line fault))
  | parts => .error (.storeFormat (.fieldCount parts.length line))

/-- Whether a line holds no record: it is blank, or a comment. -/
def isIgnored (line : List Char) : Bool :=
  match trimLeft isBlank line with
  | [] => true
  | c :: _ => c = '#'

end MemoryLimit
