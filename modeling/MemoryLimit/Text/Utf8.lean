/-!
# Reading UTF-8 that may be damaged

Bytes that come from a process need not be well-formed text. Each maximal piece that begins a
character and does not finish it is read as one replacement character, and so is each byte that can
begin no character.

## Main definitions

* `Pending` — a character of which some bytes are still to come.
* `readLossy` — the text of a sequence of bytes.
-/
namespace MemoryLimit.Text

/-- A character of which the first bytes are known: how many are still to come, the bits read so
far, and the range of the next byte. -/
structure Pending where
  left : Nat
  bits : Nat
  low : Nat
  high : Nat

/-- The character that stands for bytes that are no text. -/
def replacement : Char := '\uFFFD'

/-- What a byte means at the beginning of a character: a whole character, the beginning of one, or
nothing. -/
def beginCharacter (b : Nat) : List Char × Option Pending :=
  if b < 0x80 then ([Char.ofNat b], none)
  else if 0xc2 ≤ b && b ≤ 0xdf then ([], some ⟨1, b - 0xc0, 0x80, 0xbf⟩)
  else if b = 0xe0 then ([], some ⟨2, 0, 0xa0, 0xbf⟩)
  else if b = 0xed then ([], some ⟨2, 13, 0x80, 0x9f⟩)
  else if 0xe1 ≤ b && b ≤ 0xef then ([], some ⟨2, b - 0xe0, 0x80, 0xbf⟩)
  else if b = 0xf0 then ([], some ⟨3, 0, 0x90, 0xbf⟩)
  else if b = 0xf4 then ([], some ⟨3, 4, 0x80, 0x8f⟩)
  else if 0xf1 ≤ b && b ≤ 0xf3 then ([], some ⟨3, b - 0xf0, 0x80, 0xbf⟩)
  else ([replacement], none)

/-- Reads one more byte. -/
def readByte (pending : Option Pending) (b : Nat) : List Char × Option Pending :=
  match pending with
  | none => beginCharacter b
  | some p =>
    if p.low ≤ b && b ≤ p.high then
      let bits := 64 * p.bits + (b - 0x80)
      if p.left ≤ 1 then ([Char.ofNat bits], none)
      else ([], some ⟨p.left - 1, bits, 0x80, 0xbf⟩)
    else
      let (out, next) := beginCharacter b
      (replacement :: out, next)

/-- Reads the remaining bytes. -/
def readLossyFrom : Option Pending → List UInt8 → List Char
  | none, [] => []
  | some _, [] => [replacement]
  | pending, b :: rest =>
    let (out, next) := readByte pending b.toNat
    out ++ readLossyFrom next rest

/-- The text of a sequence of bytes, with replacement characters where it is damaged. -/
def readLossy (bytes : ByteArray) : String :=
  String.ofList (readLossyFrom none bytes.toList)

end MemoryLimit.Text
