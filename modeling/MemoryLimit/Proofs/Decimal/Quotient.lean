import Mathlib
import MemoryLimit.Proofs.Decimal.Arithmetic

/-!
# Quotients that can be written

A quotient is taken with more digits than the context allows and rounded after that. Where the
division comes out even by then, it is the exact quotient that is rounded; and if the digits of the
context are enough to write that, it is the result.

## Main definitions

* `Context.quotientShift` — how far a dividend is shifted before it is divided.

## Main statements

* `Context.divNonzero_of_dvd` — a division that comes out even, before it is rounded.
* `Context.divNumber_exact` — a quotient that can be written is the result.
-/
namespace MemoryLimit

open Text

namespace Context

variable {ctx : Context} {x y : Number}

/-- How many places a dividend is shifted to the left before it is divided. -/
def quotientShift (ctx : Context) (x y : Number) : ℤ :=
  (digitCount y.coefficient : ℤ) - digitCount x.coefficient + ctx.precision + 1

/-- **A division that comes out even** gives the exact quotient, which is then rounded. -/
theorem divNonzero_of_dvd {shift : ℕ} (hshift : ctx.quotientShift x y = shift)
    (hdvd : y.coefficient ∣ x.coefficient * 10 ^ shift) (hy : y.coefficient ≠ 0) :
    ∃ q : Number, ctx.divNonzero x y = ctx.finish q ∧ q.toRat = x.toRat / y.toRat ∧
      x.exponent - y.exponent - shift ≤ q.exponent := by
  obtain ⟨k, hk⟩ := hdvd
  have hquotient : x.coefficient * 10 ^ shift / y.coefficient = k := by
    rw [hk, Nat.mul_div_cancel_left _ (Nat.pos_of_ne_zero hy)]
  obtain ⟨hvalue, hle, -⟩ :=
    dropZeros_spec shift k (x.exponent - y.exponent - shift) (x.exponent - y.exponent)
  generalize hcut : dropZeros shift k (x.exponent - y.exponent - shift) (x.exponent - y.exponent) =
    cut at hvalue hle
  let q : Number := ⟨x.negative != y.negative, cut.1, cut.2⟩
  have hdiv : ctx.divNonzero x y = ctx.finish q := by
    rw [quotientShift] at hshift
    simp only [divNonzero, hshift, Int.toNat_natCast, Int.toNat_neg_natCast, pow_zero, mul_one,
      hquotient, Nat.mod_eq_zero_of_dvd (Dvd.intro k hk.symm), if_true, hcut, q]
  have hmagnitude : (cut.1 : ℚ) * 10 ^ cut.2 =
      x.coefficient * 10 ^ x.exponent / (y.coefficient * 10 ^ y.exponent) := by
    have hy' : (y.coefficient : ℚ) ≠ 0 := by exact_mod_cast hy
    have hk' : (x.coefficient : ℚ) * 10 ^ shift = y.coefficient * k := by exact_mod_cast hk
    have hvalue' : (cut.1 : ℚ) * 10 ^ (cut.2 - (x.exponent - y.exponent - shift)).toNat = k := by
      exact_mod_cast hvalue
    rw [Number.ten_zpow_of_le hle, ← mul_assoc, hvalue', zpow_sub₀ (by norm_num),
      zpow_sub₀ (by norm_num), zpow_natCast]
    field_simp
    linear_combination -hk'
  refine ⟨q, hdiv, ?_, hle⟩
  cases hx : x.negative <;> cases hyn : y.negative
  · rw [Number.toRat_of_nonnegative (by simp [q, hx, hyn]), Number.toRat_of_nonnegative hx,
      Number.toRat_of_nonnegative hyn, hmagnitude]
  · rw [Number.toRat_of_negative (by simp [q, hx, hyn]), Number.toRat_of_nonnegative hx,
      Number.toRat_of_negative hyn, hmagnitude, div_neg]
  · rw [Number.toRat_of_negative (by simp [q, hx, hyn]), Number.toRat_of_negative hx,
      Number.toRat_of_nonnegative hyn, hmagnitude, neg_div]
  · rw [Number.toRat_of_nonnegative (by simp [q, hx, hyn]), Number.toRat_of_negative hx,
      Number.toRat_of_negative hyn, hmagnitude, neg_div_neg_eq]

/-- **A quotient that can be written is the result**, if the division comes out even by the digits of
the context and the quotient stays away from the limits of the exponent range. -/
theorem divNumber_exact (hp : 0 < ctx.precision) {shift : ℕ}
    (hshift : ctx.quotientShift x y = shift) (hdvd : y.coefficient ∣ x.coefficient * 10 ^ shift)
    (hy : y.coefficient ≠ 0) (hwritten : Representable ctx.precision (x.toRat / y.toRat))
    (hmin : ctx.minUnit ≤ x.exponent - y.exponent - shift)
    (hmax : x.exponent - y.exponent - shift ≤ ctx.maxExponent)
    (hbig : |x.toRat / y.toRat| ≤ (10 : ℚ) ^ ctx.maxExponent) :
    ∃ r, ctx.divNumber x y = .ok r ∧ r.toRat = x.toRat / y.toRat := by
  rw [divNumber, if_neg hy]
  by_cases hx : x.coefficient = 0
  · refine ⟨_, by rw [if_pos hx, finish, if_pos rfl], ?_⟩
    rw [(Number.toRat_eq_zero_iff x).2 hx, zero_div, Number.toRat_eq_zero_iff]
  · obtain ⟨q, hdiv, hq, hexp⟩ := divNonzero_of_dvd hshift hdvd hy
    obtain ⟨r, hr, hresult, -⟩ := finish_spec hp (x.exponent - y.exponent - shift)
      (hmin.trans hexp) hexp hmax (hq ▸ hbig)
    rw [hq] at hresult
    exact ⟨r, by rw [if_neg hx, hdiv, hr], hresult.rounds.eq_of_representable hwritten⟩

end Context

end MemoryLimit
