import MemoryLimit.Text.Quoted
import MemoryLimit.Text.Utf8

/-!
# Text as the system hands it over

The words of a command line are bytes, and bytes need not be text: a byte that belongs to no character
is handed over as half of a surrogate pair, and JSON can spell such a half, too. It is compared and
shown like a character, but it has no bytes in UTF-8, so a text with halves cannot be written to a
file.

## Main definitions

* `CodePoint` — a character, or half of a surrogate pair.
* `RawText` — a sequence of code points.
* `RawText.ofString`, `RawText.string` — a string as such a text, and back, with each half replaced.
* `RawText.encode` — the bytes of a text, or the halves that have none.
* `RawText.quoted` — a text in quotes.
-/
namespace MemoryLimit

/-- A character, or half of a surrogate pair, by its offset from the first of them. -/
inductive CodePoint where
  | char (c : Char)
  | half (offset : Fin 0x800)
deriving DecidableEq, Repr

namespace CodePoint

/-- The number of a code point. -/
def code : CodePoint → Nat
  | char c => c.toNat
  | half offset => 0xd800 + offset

/-- The code point of a number. -/
def ofCode (n : Nat) : CodePoint :=
  if h : 0xd800 ≤ n ∧ n < 0xe000 then half ⟨n - 0xd800, by omega⟩ else char (Char.ofNat n)

/-- Whether a code point is no character. -/
def isHalf : CodePoint → Bool
  | char _ => false
  | half _ => true

/-- The character that stands for a code point: itself, or the one for what is no text. -/
def shown : CodePoint → Char
  | char c => c
  | half _ => Text.replacement

/-- A half, as it is shown where it cannot stand itself. -/
def spelled (offset : Fin 0x800) : List Char :=
  '\\' :: 'u' :: Text.hexPadded 4 (0xd800 + offset)

/-- A code point as it stands between two marks. -/
def escape (mark : Char) : CodePoint → List Char
  | char c => Text.escape mark c
  | half offset => spelled offset

end CodePoint

/-- A text as the system hands it over. -/
structure RawText where
  points : List CodePoint
deriving DecidableEq, Repr, Inhabited

/-- Halves that stand side by side in a text: where they begin, the first of them, and how many more
there are. -/
structure HalfRun where
  position : Nat
  first : Fin 0x800
  more : Nat
deriving DecidableEq, Repr

namespace RawText

/-- A string, which is a text without halves. -/
def ofString (s : String) : RawText :=
  ⟨s.toList.map .char⟩

instance : Coe String RawText := ⟨ofString⟩

/-- The characters that stand for a text. -/
def shown (t : RawText) : List Char :=
  t.points.map CodePoint.shown

/-- The string that stands for a text. -/
def string (t : RawText) : String :=
  String.ofList t.shown

/-- Whether a text has no halves. -/
def isText (t : RawText) : Bool :=
  t.points.all (!·.isHalf)

/-- Two texts one after the other. -/
def append (t u : RawText) : RawText :=
  ⟨t.points ++ u.points⟩

instance : Append RawText := ⟨append⟩

/-- Texts one after the other. -/
def join (texts : List RawText) : RawText :=
  ⟨texts.flatMap points⟩

/-- The numbers of the code points of a text. -/
def codes (t : RawText) : List Nat :=
  t.points.map CodePoint.code

/-- Texts are in the order of the numbers of their code points. -/
instance : LT RawText := ⟨fun t u => t.codes < u.codes⟩

instance : DecidableLT RawText := fun t u => inferInstanceAs (Decidable (t.codes < u.codes))

/-- The first halves of a text, if it has any. -/
def firstHalves? (t : RawText) : Option HalfRun :=
  match t.points.dropWhile (!·.isHalf) with
  | .half offset :: rest =>
    some ⟨(t.points.takeWhile (!·.isHalf)).length, offset, (rest.takeWhile (·.isHalf)).length⟩
  | _ => none

/-- The bytes of a text, or the first halves in it, which have none. -/
def encode (t : RawText) : Except HalfRun ByteArray :=
  match t.firstHalves? with
  | none => .ok t.string.toUTF8
  | some run => .error run

/-- A text in quotes. -/
def quoted (t : RawText) : String :=
  let mark := Text.quoteMark t.shown
  String.ofList (mark :: t.points.flatMap (CodePoint.escape mark) ++ [mark])

/-! ## Strings -/

@[simp] theorem shown_ofString (s : String) : (ofString s).shown = s.toList := by
  simp [shown, ofString, Function.comp_def, CodePoint.shown]

@[simp] theorem string_ofString (s : String) : (ofString s).string = s := by
  rw [string, shown_ofString, String.ofList_toList]

@[simp] theorem isText_ofString (s : String) : (ofString s).isText = true := by
  simp [isText, ofString, CodePoint.isHalf]

@[simp] theorem shown_append (t u : RawText) : (t ++ u).shown = t.shown ++ u.shown :=
  List.map_append

@[simp] theorem isText_append (t u : RawText) : (t ++ u).isText = (t.isText && u.isText) :=
  List.all_append

end RawText

end MemoryLimit
