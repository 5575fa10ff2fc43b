/-!
# Rounding a quotient

Decimal and binary arithmetic round in one way: to the nearest integer, and from halfway between two
integers to the even one.

## Main definitions

* `roundHalfEven` — the quotient of two naturals, rounded to the nearest.
-/
namespace MemoryLimit

/-- The quotient `n / d`, rounded to the nearest integer, from halfway to the even one. -/
def roundHalfEven (n d : Nat) : Nat :=
  let q := n / d
  let r := n % d
  if d < 2 * r || (2 * r == d && q % 2 == 1) then q + 1 else q

end MemoryLimit
