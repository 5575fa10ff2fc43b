import MemoryLimit.Text.Line

/-!
# Calendar dates

## Main definitions

* `Moment` — a calendar date, perhaps with a time of day.
* `Moment.read?` — the date that a text denotes.
* `Moment.fault?` — why there is no such date.
-/
namespace MemoryLimit.Yaml

/-- How far a local time is from universal time. -/
structure Offset where
  negative : Bool
  hours : Nat
  minutes : Nat
deriving DecidableEq, Repr

/-- A time of day. Fractions of seconds are dropped. -/
structure TimeOfDay where
  hour : Nat
  minute : Nat
  second : Nat
  offset : Option Offset
deriving DecidableEq, Repr

/-- A calendar date, perhaps with a time of day. -/
structure Moment where
  year : Nat
  month : Nat
  day : Nat
  time : Option TimeOfDay
deriving DecidableEq, Repr

/-- Why a date does not exist. -/
inductive CalendarFault where
  | year (year : Nat)
  | month
  | day
  | hour
  | minute
  | second
  /-- The local time is a day or more from universal time. -/
  | offset (offset : Offset)
deriving DecidableEq, Repr

/-- The minutes of an offset, without its sign. -/
def Offset.magnitude (o : Offset) : Nat :=
  60 * o.hours + o.minutes

/-- An offset as a number of days and a number of seconds that is not negative. -/
def Offset.shown (o : Offset) : String :=
  let minutes : Int := if o.negative then -(o.magnitude : Int) else o.magnitude
  let days := minutes.fdiv 1440
  let seconds := 60 * minutes.fmod 1440
  let parts := (if days = 0 then [] else ["days=" ++ toString days]) ++
    (if seconds = 0 then [] else ["seconds=" ++ toString seconds])
  "datetime.timedelta(" ++ (if parts.isEmpty then "0" else String.intercalate ", " parts) ++ ")"

/-- The message about a date that does not exist. -/
def CalendarFault.message : CalendarFault → String
  | year y => "year " ++ toString y ++ " is out of range"
  | month => "month must be in 1..12"
  | day => "day is out of range for month"
  | hour => "hour must be in 0..23"
  | minute => "minute must be in 0..59"
  | second => "second must be in 0..59"
  | offset o =>
    "offset must be a timedelta strictly between -timedelta(hours=24) and timedelta(hours=24), not " ++
      o.shown ++ "."

/-- Whether a year has a leap day. -/
def isLeap (year : Nat) : Bool :=
  year % 4 = 0 && (year % 100 ≠ 0 || year % 400 = 0)

/-- The number of days of a month. -/
def daysOf (year month : Nat) : Nat :=
  if month = 2 then (if isLeap year then 29 else 28)
  else if month = 4 || month = 6 || month = 9 || month = 11 then 30
  else 31

namespace Moment

/-- At least `least` and at most `most` digits at the front of a text, and their value. -/
private def takeNumber? (least most : Nat) (s : List Char) : Option (Nat × List Char) :=
  let digits := (s.take most).takeWhile Char.isDigit
  if digits.length < least then none
  else some (digits.foldl (fun n c => 10 * n + (c.toNat - 48)) 0, s.drop digits.length)

/-- A text without a character at its front. -/
private def dropMark? (mark : Char) : List Char → Option (List Char)
  | c :: rest => if c = mark then some rest else none
  | [] => none

/-- A space or a tabulator. -/
private def isGap (c : Char) : Bool :=
  c = ' ' || c = '\t'

/-- The offset at the end of a time. -/
private def readOffset? (s : List Char) : Option (Option Offset) :=
  match s.dropWhile isGap with
  | [] => if s.isEmpty then some none else none
  | ['Z'] => some (some ⟨false, 0, 0⟩)
  | sign :: rest =>
    if sign = '+' || sign = '-' then do
      let (hours, rest) ← takeNumber? 1 2 rest
      match rest with
      | [] => some (some ⟨sign = '-', hours, 0⟩)
      | _ =>
        let (minutes, rest) ← takeNumber? 2 2 (← dropMark? ':' rest)
        if rest.isEmpty then some (some ⟨sign = '-', hours, minutes⟩) else none
    else none

/-- The time of day at the end of a text. -/
private def readTime? (s : List Char) : Option TimeOfDay := do
  let (hour, rest) ← takeNumber? 1 2 s
  let (minute, rest) ← takeNumber? 2 2 (← dropMark? ':' rest)
  let (second, rest) ← takeNumber? 2 2 (← dropMark? ':' rest)
  let rest :=
    match rest with
    | '.' :: fraction => fraction.dropWhile Char.isDigit
    | rest => rest
  some ⟨hour, minute, second, ← readOffset? rest⟩

/-- What separates a date from a time. -/
private def dropSeparator? : List Char → Option (List Char)
  | c :: rest =>
    if c = 'T' || c = 't' then some rest
    else if isGap c then some (rest.dropWhile isGap)
    else none
  | [] => none

/-- The date that a text denotes: year, month and day, and perhaps a time. A line feed may follow. -/
def read? (text : String) : Option Moment := do
  let (year, rest) ← takeNumber? 4 4 (Text.dropFinalBreak text.toList)
  let (month, rest) ← takeNumber? 1 2 (← dropMark? '-' rest)
  let (day, rest) ← takeNumber? 1 2 (← dropMark? '-' rest)
  if rest.isEmpty then some ⟨year, month, day, none⟩
  else some ⟨year, month, day, some (← readTime? (← dropSeparator? rest))⟩

/-- Whether a text is recognized as a date without being marked as one: a date alone has all its
digits. -/
def isRecognized (text : String) : Bool :=
  match read? text with
  | some m => m.time.isSome || text.length = 10
  | none => false

/-- Why there is no such time of day. -/
private def timeFault? (t : TimeOfDay) : Option CalendarFault :=
  if 23 < t.hour then some .hour
  else if 59 < t.minute then some .minute
  else if 59 < t.second then some .second
  else none

/-- Why there is no such date. -/
private def dateFault? (m : Moment) : Option CalendarFault :=
  if m.year = 0 then some (.year 0)
  else if m.month = 0 || 12 < m.month then some .month
  else if m.day = 0 || daysOf m.year m.month < m.day then some .day
  else none

/-- Why there is no such moment, if there is none. -/
def fault? (m : Moment) : Option CalendarFault :=
  match m.time.bind (·.offset) with
  | some o => if o.magnitude < 1440 then checked m else some (.offset o)
  | none => checked m
where
  checked (m : Moment) : Option CalendarFault :=
    dateFault? m <|> m.time.bind timeFault?

end Moment

end MemoryLimit.Yaml
