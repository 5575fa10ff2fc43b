import Mathlib
import MemoryLimit.Proofs.Bisection.Halving

/-!
# Widths

The width of an interval is the difference of its bounds, rounded to sixty digits. Where exact
halving has led from whole numbers, the digits suffice: the width is exact, and so are the halves
of the width itself, by which a tolerance is turned into a number of steps.

## Main statements

* `Interval.width_spec` — the one rounding of a width.
* `Interval.Grid.width` — an exact width.
* `Number.OnGrid.half` — an exact half.
-/
namespace MemoryLimit

open Number (ten_zpow_pos)

/-- A bound on a grid with a full number of digits is not too large to calculate with. -/
theorem ten_pow_le_maxExponent {d : ℕ} (h : d ≤ 60) :
    2 * (10 : ℚ) ^ d ≤ 10 ^ Interval.context.maxExponent := by
  have hmax : Interval.context.maxExponent = 999999 := rfl
  rw [← zpow_natCast]
  exact (Number.two_mul_ten_zpow_le d).trans (zpow_le_zpow_right₀ (by norm_num) (by omega))

namespace Interval

variable {i : Interval} {least : ℤ} {most : ℚ} {d k : ℕ}

/-- **A width is the difference of the bounds, rounded.** -/
theorem width_spec (hi : i.Bounded least most) (hleast : context.minUnit ≤ least)
    (hmax : least ≤ context.maxExponent) (hmost : 2 * most ≤ (10 : ℚ) ^ context.maxExponent) :
    ∃ w, i.width = .ok w ∧ context.IsResult least (i.high.toRat - i.low.toRat) w := by
  have hlow := hi.low_le
  have hhigh := hi.high_le
  obtain ⟨w, hw, hresult⟩ := context.add_spec (by decide) least (x := i.high) (y := i.low.neg)
    (hleast.trans hi.least_le_high) (hleast.trans hi.least_le_low) hi.least_le_high
    hi.least_le_low hmax (by linarith) (by rw [Number.toRat_neg, abs_neg]; linarith)
  rw [Number.toRat_neg, ← sub_eq_add_neg] at hresult
  exact ⟨w, hw, hresult⟩

/-- **While the digits suffice, a width is exact**, and it lies on the grid of the bounds. -/
theorem Grid.width (h : i.Grid d k) (hdigits : d + k + 1 ≤ 60) :
    ∃ w, i.width = .ok w ∧ w.toRat = i.high.toRat - i.low.toRat ∧ w.OnGrid (d + 1) k ∧
      w.coefficient < 10 ^ 60 := by
  have hminUnit : context.minUnit = -1000058 := rfl
  have hmaxExponent : context.maxExponent = 999999 := rfl
  obtain ⟨w, hw, hresult⟩ := width_spec h.bounded (by omega) (by omega)
    (ten_pow_le_maxExponent (by omega))
  obtain ⟨a, ha⟩ := h.low.multiple
  obtain ⟨b, hb⟩ := h.high.multiple
  have hmultiple : (i.high.toRat - i.low.toRat) * 2 ^ k = ((b - a : ℤ) : ℚ) := by
    push_cast
    rw [← ha, ← hb]
    ring
  have hlt : |i.high.toRat - i.low.toRat| < 10 ^ (d + 1) := by
    rw [pow_succ]
    have hpos := pow_pos (by norm_num : (0 : ℚ) < 10) d
    linarith [abs_sub i.high.toRat i.low.toRat, h.low.lt, h.high.lt]
  have hexact : w.toRat = i.high.toRat - i.low.toRat := by
    refine hresult.rounds.eq_of_representable (representable_of_mul_two_pow hmultiple ?_)
    calc |i.high.toRat - i.low.toRat| * 10 ^ k ≤ 10 ^ (d + 1) * 10 ^ k := by gcongr
      _ = 10 ^ (d + k + 1) := by rw [← pow_add]; congr 1; ring
      _ ≤ 10 ^ 60 := pow_le_pow_right₀ (by norm_num) hdigits
  exact ⟨w, hw, hexact, ⟨hresult.least_le, ⟨b - a, by rw [hexact, hmultiple]⟩,
    by rwa [hexact]⟩, hresult.fits⟩

end Interval

/-- **While the digits suffice, a half is exact**, and it lies on the next finer grid. -/
theorem Number.OnGrid.half {x : Number} {d k : ℕ} (h : x.OnGrid d k)
    (hfits : x.coefficient < 10 ^ 60) (hdigits : d + k + 1 ≤ 60) :
    ∃ r, Interval.context.half x = .ok r ∧ r.toRat = x.toRat / 2 ∧ r.OnGrid d (k + 1) ∧
      r.coefficient < 10 ^ 60 := by
  have hminUnit : Interval.context.minUnit = -1000058 := rfl
  have hmaxExponent : Interval.context.maxExponent = 999999 := rfl
  have hplaces := h.places
  have hbig := ten_pow_le_maxExponent (d := d) (by omega)
  obtain ⟨r, hr, hresult⟩ := Interval.context.half_spec (by decide) (-(k + 1 : ℕ)) hfits
    (by omega) (by push_cast; omega) (by omega) (by linarith [h.lt, abs_nonneg x.toRat])
  obtain ⟨a, ha⟩ := h.multiple
  have hmultiple : x.toRat / 2 * 2 ^ (k + 1) = a := by
    rw [← ha]
    ring
  have hlt : |x.toRat / 2| < 10 ^ d := by
    rw [abs_div, abs_two]
    linarith [h.lt, abs_nonneg x.toRat]
  have hexact : r.toRat = x.toRat / 2 := by
    refine hresult.rounds.eq_of_representable (representable_of_mul_two_pow hmultiple ?_)
    calc |x.toRat / 2| * 10 ^ (k + 1) ≤ 10 ^ d * 10 ^ (k + 1) := by gcongr
      _ = 10 ^ (d + k + 1) := by rw [← pow_add, add_assoc]
      _ ≤ 10 ^ 60 := pow_le_pow_right₀ (by norm_num) hdigits
  exact ⟨r, hr, hexact, ⟨hresult.least_le, ⟨a, by rw [hexact, hmultiple]⟩, by rwa [hexact]⟩,
    hresult.fits⟩

end MemoryLimit
