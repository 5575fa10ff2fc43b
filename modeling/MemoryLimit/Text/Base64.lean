/-!
# Bytes written in base 64

Four characters stand for three bytes; equals signs fill up the last four. Other characters are
skipped.

## Main definitions

* `decodeBase64?` — the bytes that a text stands for.
-/
namespace MemoryLimit.Text

/-- The six bits that a character stands for. -/
def base64Value? (c : Char) : Option Nat :=
  if c.isUpper then some (c.toNat - 65)
  else if c.isLower then some (c.toNat - 71)
  else if c.isDigit then some (c.toNat + 4)
  else if c = '+' then some 62
  else if c = '/' then some 63
  else none

/-- The bytes of the characters that are left. `place` is the number of characters of the present four
that came before, `bits` holds the bits of them that are not in a byte yet, and `fill` counts the equals
signs since the last character that stands for bits. -/
def decodeBase64From : Nat → Nat → Nat → List Char → Option (List UInt8)
  | place, _, _, [] => if place = 0 then some [] else none
  | place, bits, fill, c :: rest =>
    if c = '=' then
      if 2 ≤ place then
        if 4 ≤ place + (fill + 1) then some [] else decodeBase64From place bits (fill + 1) rest
      else decodeBase64From place bits fill rest
    else
      match base64Value? c with
      | none => decodeBase64From place bits fill rest
      | some v =>
        match place with
        | 0 => decodeBase64From 1 v 0 rest
        | 1 => (decodeBase64From 2 (v % 16) 0 rest).map ((bits * 4 + v / 16).toUInt8 :: ·)
        | 2 => (decodeBase64From 3 (v % 4) 0 rest).map ((bits * 16 + v / 4).toUInt8 :: ·)
        | _ => (decodeBase64From 0 0 0 rest).map ((bits * 64 + v).toUInt8 :: ·)

/-- The bytes that a text stands for, if it is complete. -/
def decodeBase64? (s : List Char) : Option (List UInt8) :=
  decodeBase64From 0 0 0 s

end MemoryLimit.Text
