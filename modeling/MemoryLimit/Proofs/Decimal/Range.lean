import MemoryLimit.Decimal.Context
import MemoryLimit.Proofs.Decimal.Text

/-!
# Numbers that there are

A decimal number can be held if the places of its first and its last digit are not too far out. A
numeral of another one is not read, and a result that is rounded to the digits of the standard context
has its places far inside. So every number that a calculation meets can be held.

## Main statements

* `held_of_readDecimal` — a numeral that is read is one of a number that there is.
* `Context.isExact_of_finish`, `Context.isExact_of_divNumber` — rounded results can be held.
-/
namespace MemoryLimit

open Text

/-! ## Numerals -/

theorem held_of_readSpecial? {negative : Bool} {s : List Char} {d : Decimal}
    (h : readSpecial? negative s = some d) : d.Held := by
  rw [readSpecial?] at h
  split at h
  · cases h
    trivial
  · cases h
    trivial
  · obtain ⟨_, -, rfl⟩ := Option.map_eq_some_iff.1 h
    trivial
  · obtain ⟨_, -, rfl⟩ := Option.map_eq_some_iff.1 h
    trivial
  · cases h

/-- A numeral that is read is one of a number that there is. -/
theorem held_of_readDecimal {text : String} {d : Decimal} (h : readDecimal text = .ok d) :
    d.Held := by
  rw [readDecimal, readPlainDecimal] at h
  dsimp only at h
  split at h
  · rename_i special hspecial
    cases h
    exact held_of_readSpecial? hspecial
  · split at h
    · cases h
    · split at h
      · rename_i hexact
        cases h
        exact hexact
      · cases h

/-! ## Results -/

namespace Context

/-- A number can be held whose last digit, and whose first one, have places that are not too far out. -/
theorem isExact_of_exponent {x : Number} (hmin : standard.minUnit ≤ x.exponent)
    (hmax : (if x.coefficient = 0 then x.exponent else x.adjusted) ≤ standard.maxExponent + 1) :
    x.isExact = true := by
  have hleast : exactMinUnit ≤ standard.minUnit := by decide
  have hgreatest : standard.maxExponent + 1 ≤ exactMaxExponent := by decide
  rw [Number.isExact, Bool.and_eq_true, decide_eq_true_eq, decide_eq_true_eq]
  exact ⟨hleast.trans hmin, hmax.trans hgreatest⟩

/-- Dropping a carried digit takes the unit one place up at most. -/
theorem dropCarry_unit (ctx : Context) (coefficient : ℕ) (unit : ℤ) :
    unit ≤ (ctx.dropCarry coefficient unit).2 ∧ (ctx.dropCarry coefficient unit).2 ≤ unit + 1 := by
  rw [dropCarry]
  split <;> simp

/-- A rounded result can be held: its exponents lie far inside those of the numbers that there are. -/
theorem isExact_of_finish {x r : Number} (h : standard.finish x = .ok r) :
    r.isExact = true := by
  rw [finish] at h
  split at h
  · rename_i hzero
    cases h
    have hunits : standard.minUnit ≤ standard.maxExponent := by decide
    apply isExact_of_exponent
    · simp only
      omega
    · simp only [hzero, if_true]
      omega
  rename_i hnonzero
  split at h
  · cases h
  rename_i hlarge
  dsimp only at h
  split at h
  · rename_i hunit
    cases h
    apply isExact_of_exponent
    · simp only [unitFor] at hunit
      omega
    · rw [if_neg hnonzero]
      omega
  · -- the unit of the rounded number is that of the context, or the next one if rounding carried
    have hunits : standard.unitFor x.coefficient x.exponent ≤
        standard.maxExponent := by
      have hmin : standard.minUnit ≤ standard.maxExponent := by decide
      have hprecision : (1 : ℤ) ≤ standard.precision := by decide
      simp only [Number.adjusted] at hlarge
      simp only [unitFor]
      omega
    have hleast : standard.minUnit ≤
        standard.unitFor x.coefficient x.exponent := le_max_right _ _
    generalize standard.unitFor x.coefficient x.exponent = unit at h hunits hleast
    have hcarry := dropCarry_unit standard
      (toUnit x.coefficient x.exponent unit) unit
    generalize standard.dropCarry _ unit = cut at h hcarry
    obtain ⟨coefficient, place⟩ := cut
    dsimp only at h hcarry
    split at h
    · cases h
    · rename_i hfits
      cases h
      refine isExact_of_exponent (hleast.trans hcarry.1) ?_
      split
      · exact hcarry.2.trans (by omega)
      · rename_i hcoefficient
        simp only [Bool.and_eq_true, decide_eq_true_eq, not_and, not_lt] at hfits
        exact (hfits hcoefficient).trans (by omega)

/-- A quotient is a rounded result. -/
theorem isExact_of_divNumber {x y r : Number} (h : standard.divNumber x y = .ok r) :
    r.isExact = true := by
  rw [divNumber] at h
  split at h
  · cases h
  · split at h
    · exact isExact_of_finish h
    · exact isExact_of_finish h

end Context

end MemoryLimit
