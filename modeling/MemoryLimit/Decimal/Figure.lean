import MemoryLimit.Binary64.Shortest
import MemoryLimit.Decimal.Context
import MemoryLimit.Decimal.Reader

/-!
# Figures

A caller gives a number as a decimal, an integer, a text or a binary floating point number. A binary
number stands for the decimal that it is shown as, so that one tenth stays one tenth.

## Main definitions

* `Figure` — a number as a caller gives it.
* `Figure.toDecimal` — the decimal number that it stands for.
-/
namespace MemoryLimit

/-- A number as a caller gives it. -/
inductive Figure where
  | decimal (value : Decimal)
  | integer (value : Int)
  | text (value : String)
  | binary (value : Binary64)
deriving DecidableEq, Repr, Inhabited

/-- The decimal number that a text denotes; a text that denotes none raises a signal. -/
def decimalOfText (text : String) : Except Signal Decimal :=
  (readDecimal text).mapError fun _ => .invalidOperation

/-- The decimal number that a figure stands for. -/
def Figure.toDecimal : Figure → Except Signal Decimal
  | .decimal d => .ok d
  | .integer i => .ok (.ofInt i)
  | .text s => decimalOfText s
  | .binary x => decimalOfText x.text

end MemoryLimit
