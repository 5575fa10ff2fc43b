import Mathlib
import MemoryLimit.Proofs.Decimal.Arithmetic

/-!
# Quotients of moderate numbers

A quotient signals an overflow only if it is too large for the context, and so do few numbers that are
met: a number that has not too many digits, with a point that is not too far from them, can be divided
by another one. How far is too far is counted in digits alone, so nothing has to be known of values.

## Main definitions

* `Number.Within` — a number has at most so many digits, and its point is not farther from them.

## Main statements

* `Context.finish_within` — a value of bounded magnitude is brought into the context.
* `Context.divNumber_within` — the quotient of two moderate numbers.
-/
namespace MemoryLimit

open Text

/-- The number has at most `k` digits, and at most as many places lie between the last of them and the
point. -/
structure Number.Within (x : Number) (k : ℕ) : Prop where
  digits : digitCount x.coefficient ≤ k
  low : -(k : ℤ) ≤ x.exponent
  high : x.exponent ≤ k

namespace Context

open Number (ten_zpow_pos)

/-- **A value of bounded magnitude is brought into the standard context**, and stays as moderate. -/
theorem finish_within {x : Number} {k : ℕ} (hlow : -(k : ℤ) ≤ x.exponent)
    (hbig : |x.toRat| ≤ (10 : ℚ) ^ (k : ℤ)) (hzero : x.coefficient = 0 → x.exponent ≤ k)
    (hleast : standard.precision ≤ k) (hmost : (k : ℤ) ≤ standard.maxExponent) :
    ∃ r, standard.finish x = .ok r ∧ r.Within k := by
  have hmin : standard.minUnit ≤ x.exponent := by
    have hunits : standard.minUnit ≤ -standard.maxExponent := by decide
    omega
  have hpow : (10 : ℚ) ^ (k : ℤ) ≤ 10 ^ standard.maxExponent :=
    zpow_le_zpow_right₀ (by norm_num) hmost
  have hprecise : 0 < standard.precision := by decide
  obtain ⟨r, hr, hresult, herror⟩ :=
    finish_spec hprecise (-k) hmin hlow (by omega) (hbig.trans hpow)
  refine ⟨r, hr, ⟨((digitCount_le_iff (by decide)).2 hresult.fits).trans hleast,
    hresult.least_le, ?_⟩⟩
  by_cases hr0 : r.coefficient = 0
  · -- only zero is rounded to zero, and it keeps its exponent
    have hx0 : x.coefficient = 0 := by
      rw [(Number.toRat_eq_zero_iff r).2 hr0, zero_sub, abs_neg] at herror
      rw [← Number.toRat_eq_zero_iff, ← abs_nonpos_iff]
      have hprecision : (1 : ℚ) ≤ 10 ^ (standard.precision - 1) := one_le_pow₀ (by norm_num)
      have hlarge := le_mul_of_one_le_right (abs_nonneg x.toRat) hprecision
      linarith
    have hx := hzero hx0
    rw [finish, if_pos hx0] at hr
    cases hr
    simp only
    omega
  · have hrbig := hresult.rounds.abs_le_of_le (representable_ten_zpow _ _) hbig
    have hadjusted := (zpow_le_zpow_iff_right₀ (by norm_num)).1
      ((Number.ten_zpow_adjusted_le hr0).trans hrbig)
    have hdigits := digitCount_pos r.coefficient
    rw [Number.adjusted] at hadjusted
    omega

/-- A quotient that was cut off is at most one more than it would be. -/
theorem sticky_le (q r : ℕ) : sticky q r ≤ q + 1 := by
  rw [sticky]
  split <;> omega

/-- Dropping zeros takes the last digit up by at most as many places as may be dropped. -/
theorem dropZeros_le (fuel c : ℕ) (e ideal : ℤ) : (dropZeros fuel c e ideal).2 ≤ e + fuel := by
  induction fuel generalizing c e with
  | zero => simp [dropZeros]
  | succ fuel ih =>
    rw [dropZeros]
    split
    · have hrest := ih (c / 10) (e + 1)
      push_cast
      omega
    · push_cast
      omega

/-- The quotient of two numbers before it is brought into the context: where its last digit stands, and
how large it is. -/
theorem exists_divNonzero (ctx : Context) (x y : Number) :
    ∃ (q : Number) (shift : ℤ),
      shift = (digitCount y.coefficient : ℤ) - digitCount x.coefficient + ctx.precision + 1 ∧
      ctx.divNonzero x y = ctx.finish q ∧
      x.exponent - y.exponent - shift ≤ q.exponent ∧
      q.exponent ≤ x.exponent - y.exponent - shift + shift.toNat ∧
      |q.toRat| ≤ ((x.coefficient * 10 ^ shift.toNat + 1 : ℕ) : ℚ) *
        10 ^ (x.exponent - y.exponent - shift) := by
  obtain ⟨shift, hshift⟩ : ∃ shift : ℤ,
      shift = (digitCount y.coefficient : ℤ) - digitCount x.coefficient + ctx.precision + 1 := ⟨_, rfl⟩
  let num := x.coefficient * 10 ^ shift.toNat
  let den := y.coefficient * 10 ^ (-shift).toNat
  let ideal := x.exponent - y.exponent
  let cut := if num % den = 0 then dropZeros shift.toNat (num / den) (ideal - shift) ideal
    else (sticky (num / den) (num % den), ideal - shift)
  have hquotient := Nat.div_le_self num den
  obtain ⟨hlow, hhigh, hvalue⟩ : ideal - shift ≤ cut.2 ∧ cut.2 ≤ ideal - shift + shift.toNat ∧
      (cut.1 : ℚ) * 10 ^ cut.2 ≤ ((num + 1 : ℕ) : ℚ) * 10 ^ (ideal - shift) := by
    by_cases hexact : num % den = 0
    · obtain ⟨hvalue, hle, -⟩ := dropZeros_spec shift.toNat (num / den) (ideal - shift) ideal
      simp only [cut, if_pos hexact]
      refine ⟨hle, dropZeros_le _ _ _ _, ?_⟩
      rw [Number.ten_zpow_of_le hle, ← mul_assoc]
      refine mul_le_mul_of_nonneg_right ?_ (ten_zpow_pos _).le
      have hcast := congrArg (Nat.cast (R := ℚ)) hvalue
      rw [Nat.cast_mul, Nat.cast_pow, Nat.cast_ofNat] at hcast
      rw [hcast, Nat.cast_le]
      exact hquotient.trans (Nat.le_succ num)
    · simp only [cut, if_neg hexact]
      refine ⟨le_rfl, by omega, mul_le_mul_of_nonneg_right ?_ (ten_zpow_pos _).le⟩
      rw [Nat.cast_le]
      exact (sticky_le _ _).trans (Nat.succ_le_succ hquotient)
  refine ⟨⟨x.negative != y.negative, cut.1, cut.2⟩, shift, hshift, ?_, hlow, hhigh, ?_⟩
  · rw [divNonzero, ← hshift]
  · rw [Number.abs_toRat]
    exact hvalue

/-- **Two moderate numbers have a quotient**, and it is moderate too. -/
theorem divNumber_within {x y : Number} {a b k : ℕ} (hx : x.Within a) (hy : y.Within b)
    (hy0 : y.coefficient ≠ 0) (hk : 4 * (a + b + standard.precision) + 8 ≤ k)
    (hmost : (k : ℤ) ≤ standard.maxExponent) :
    ∃ r, standard.divNumber x y = .ok r ∧ r.Within k := by
  have hxlow := hx.low
  have hxhigh := hx.high
  have hylow := hy.low
  have hyhigh := hy.high
  have hxdigits := hx.digits
  have hydigits := hy.digits
  have hxpos := digitCount_pos x.coefficient
  rw [divNumber, if_neg hy0]
  split
  · refine finish_within ?_ ?_ ?_ (by omega) hmost
    · simp only
      omega
    · simp only [Number.abs_toRat, Nat.cast_zero, zero_mul]
      exact (ten_zpow_pos _).le
    · simp only
      omega
  · rename_i hx0
    obtain ⟨q, shift, hshift, hq, hqlow, hqhigh, hqbig⟩ := exists_divNonzero standard x y
    rw [hq]
    have hnum : x.coefficient * 10 ^ shift.toNat + 1 ≤ 10 ^ (digitCount x.coefficient + shift.toNat) := by
      rw [pow_add]
      exact Nat.mul_lt_mul_of_pos_right (lt_ten_pow_digitCount _) (by positivity)
    have hvalue : |q.toRat| ≤ (10 : ℚ) ^ (k : ℤ) := by
      calc |q.toRat| ≤ _ := hqbig
        _ ≤ ((10 ^ (digitCount x.coefficient + shift.toNat) : ℕ) : ℚ) *
              10 ^ (x.exponent - y.exponent - shift) :=
            mul_le_mul_of_nonneg_right (by exact_mod_cast hnum) (ten_zpow_pos _).le
        _ = 10 ^ (((digitCount x.coefficient + shift.toNat : ℕ) : ℤ) +
              (x.exponent - y.exponent - shift)) := by
            rw [zpow_add₀ (by norm_num), zpow_natCast]
            push_cast
            rfl
        _ ≤ 10 ^ (k : ℤ) := zpow_le_zpow_right₀ (by norm_num) (by push_cast; omega)
    exact finish_within (by omega) hvalue (fun _ => by omega) (by omega) hmost

end Context

end MemoryLimit
