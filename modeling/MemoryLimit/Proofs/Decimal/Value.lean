import Mathlib
import MemoryLimit.Decimal.Basic
import MemoryLimit.Proofs.Text.Digits

/-!
# The values of decimal numbers

The value of a finite decimal number is a rational. The comparisons and the roundings to whole
numbers that are computed on digits are those of the values, so that what follows can be said
about rationals.

## Main definitions

* `Number.toRat` — the value of a number.

## Main statements

* `Number.compare_eq` — numbers are compared as their values are.
* `Number.floor_eq`, `Number.ceil_eq` — the whole numbers next to a value.
-/
namespace MemoryLimit

open Text

namespace Number

/-! ## Values -/

/-- The value of a number. -/
def toRat (x : Number) : ℚ :=
  x.signedCoefficient * (10 : ℚ) ^ x.exponent

theorem ten_zpow_pos (e : ℤ) : (0 : ℚ) < 10 ^ e :=
  zpow_pos (by norm_num) e

theorem two_mul_ten_zpow_le (e : ℤ) : 2 * (10 : ℚ) ^ e ≤ 10 ^ (e + 1) := by
  rw [zpow_add_one₀ (by norm_num)]
  linarith [ten_zpow_pos e]

theorem ten_zpow_add_natCast (e : ℤ) (k : ℕ) : (10 : ℚ) ^ (e + k) = 10 ^ k * 10 ^ e := by
  rw [zpow_add₀ (by norm_num), zpow_natCast, mul_comm]

/-- A power of ten in units of a smaller one. -/
theorem ten_zpow_of_le {u t : ℤ} (h : u ≤ t) : (10 : ℚ) ^ t = 10 ^ (t - u).toNat * 10 ^ u := by
  have hsplit : t = u + ((t - u).toNat : ℤ) := by omega
  conv_lhs => rw [hsplit, ten_zpow_add_natCast]

@[simp] theorem toRat_ofInt (i : ℤ) : (ofInt i).toRat = i := by
  rcases lt_or_ge i 0 with h | h
  · simp [toRat, ofInt, signedCoefficient, h, abs_of_neg h]
  · simp [toRat, ofInt, signedCoefficient, not_lt.2 h, abs_of_nonneg h]

@[simp] theorem toRat_neg (x : Number) : x.neg.toRat = -x.toRat := by
  cases h : x.negative <;> simp [toRat, neg, signedCoefficient, h]

/-- The magnitude of a value has the digits of the coefficient. -/
theorem abs_toRat (x : Number) : |x.toRat| = x.coefficient * (10 : ℚ) ^ x.exponent := by
  rw [toRat, abs_mul, abs_of_pos (ten_zpow_pos x.exponent)]
  cases h : x.negative <;> simp [signedCoefficient, h]

theorem toRat_of_nonnegative {x : Number} (h : x.negative = false) :
    x.toRat = x.coefficient * (10 : ℚ) ^ x.exponent := by
  simp [toRat, signedCoefficient, h]

theorem toRat_of_negative {x : Number} (h : x.negative = true) :
    x.toRat = -(x.coefficient * (10 : ℚ) ^ x.exponent) := by
  simp [toRat, signedCoefficient, h]

@[simp] theorem toRat_eq_zero_iff (x : Number) : x.toRat = 0 ↔ x.coefficient = 0 := by
  rw [← abs_eq_zero, abs_toRat, mul_eq_zero]
  simp [(ten_zpow_pos x.exponent).ne']

theorem toRat_pos {x : Number} (h : x.negative = false) (hx : x.coefficient ≠ 0) : 0 < x.toRat := by
  rw [toRat_of_nonnegative h]
  exact mul_pos (by exact_mod_cast Nat.pos_of_ne_zero hx) (ten_zpow_pos _)

theorem toRat_neg_of_negative {x : Number} (h : x.negative = true) (hx : x.coefficient ≠ 0) :
    x.toRat < 0 := by
  rw [toRat_of_negative h, neg_lt_zero]
  exact mul_pos (by exact_mod_cast Nat.pos_of_ne_zero hx) (ten_zpow_pos _)

/-- A number that is not zero is at least one unit in the place of its first digit. -/
theorem ten_zpow_adjusted_le {x : Number} (hx : x.coefficient ≠ 0) :
    (10 : ℚ) ^ x.adjusted ≤ |x.toRat| := by
  have hdigits : ((10 ^ (digitCount x.coefficient - 1) : ℕ) : ℚ) ≤ x.coefficient := by
    exact_mod_cast ten_pow_le_of_ne_zero hx
  have hsplit : x.adjusted = x.exponent + ((digitCount x.coefficient - 1 : ℕ) : ℤ) := by
    have := digitCount_pos x.coefficient
    simp only [adjusted]
    omega
  rw [abs_toRat, hsplit, ten_zpow_add_natCast]
  exact mul_le_mul_of_nonneg_right (by exact_mod_cast hdigits) (ten_zpow_pos _).le

/-- A number is less than ten units in the place of its first digit. -/
theorem abs_toRat_lt (x : Number) : |x.toRat| < (10 : ℚ) ^ (x.adjusted + 1) := by
  have hdigits : (x.coefficient : ℚ) < ((10 ^ digitCount x.coefficient : ℕ) : ℚ) := by
    exact_mod_cast lt_ten_pow_digitCount x.coefficient
  have hsplit : x.adjusted + 1 = x.exponent + (digitCount x.coefficient : ℤ) := by
    simp only [adjusted]
    omega
  rw [abs_toRat, hsplit, ten_zpow_add_natCast]
  exact mul_lt_mul_of_pos_right (by exact_mod_cast hdigits) (ten_zpow_pos _)

/-- A number below a power of ten has its first digit below that place. -/
theorem abs_toRat_le {x : Number} {p : ℕ} {e u : ℤ} (hx : x.coefficient < 10 ^ p)
    (he : x.exponent ≤ e) (hu : p + e = u) : |x.toRat| ≤ (10 : ℚ) ^ u := by
  rw [abs_toRat, ← hu, add_comm, ten_zpow_add_natCast]
  gcongr
  · exact_mod_cast hx.le
  · norm_num

/-! ## The order of values -/

/-- Numbers that are not zero are compared in magnitude as their values are. -/
theorem compareMagnitude_eq {x y : Number} (hx : x.coefficient ≠ 0) (hy : y.coefficient ≠ 0) :
    compareMagnitude x y = Ord.compare |x.toRat| |y.toRat| := by
  rcases lt_trichotomy x.adjusted y.adjusted with h | h | h
  · have hlt : |x.toRat| < |y.toRat| :=
      (abs_toRat_lt x).trans_le
        ((zpow_le_zpow_right₀ (by norm_num) (by omega)).trans (ten_zpow_adjusted_le hy))
    simp only [compareMagnitude, compare_lt_iff_lt.2 h, compare_lt_iff_lt.2 hlt]
  · -- the first digits stand in one place, so the coefficients decide at a common exponent
    have hscale : ∀ {z : Number} {u : ℤ}, u ≤ z.exponent →
        |z.toRat| = ((z.coefficient * 10 ^ (z.exponent - u).toNat : ℕ) : ℚ) * 10 ^ u := by
      intro z u hu
      rw [abs_toRat, ten_zpow_of_le hu]
      push_cast
      ring
    have hu := ten_zpow_pos (min x.exponent y.exponent)
    simp only [compareMagnitude, compare_eq_iff_eq.2 h]
    rw [hscale (min_le_left x.exponent y.exponent), hscale (min_le_right x.exponent y.exponent)]
    have hmono : StrictMono fun a : ℕ => (a : ℚ) * 10 ^ min x.exponent y.exponent :=
      (strictMono_mul_right_of_pos hu).comp Nat.strictMono_cast
    rw [← cmp_eq_compare, ← cmp_eq_compare]
    exact (hmono.cmp_map_eq _ _).symm
  · have hlt : |y.toRat| < |x.toRat| :=
      (abs_toRat_lt y).trans_le
        ((zpow_le_zpow_right₀ (by norm_num) (by omega)).trans (ten_zpow_adjusted_le hx))
    simp only [compareMagnitude, compare_gt_iff_gt.2 h, compare_gt_iff_gt.2 hlt]

/-- **Numbers are compared as their values are.** -/
theorem compare_eq (x y : Number) : x.compare y = Ord.compare x.toRat y.toRat := by
  by_cases hx : x.coefficient = 0 <;> by_cases hy : y.coefficient = 0
  · rw [(toRat_eq_zero_iff x).2 hx, (toRat_eq_zero_iff y).2 hy, compare_eq_iff_eq.2 rfl]
    simp [compare, hx, hy]
  · rw [(toRat_eq_zero_iff x).2 hx]
    cases h : y.negative
    · rw [compare_lt_iff_lt.2 (toRat_pos h hy)]
      simp [compare, hx, hy, h]
    · rw [compare_gt_iff_gt.2 (toRat_neg_of_negative h hy)]
      simp [compare, hx, hy, h]
  · rw [(toRat_eq_zero_iff y).2 hy]
    cases h : x.negative
    · rw [compare_gt_iff_gt.2 (toRat_pos h hx)]
      simp [compare, hx, hy, h]
    · rw [compare_lt_iff_lt.2 (toRat_neg_of_negative h hx)]
      simp [compare, hx, hy, h]
  · cases h : x.negative <;> cases h' : y.negative
    · have hpx := toRat_pos h hx
      have hpy := toRat_pos h' hy
      simp [compare, hx, hy, h, h', compareMagnitude_eq, abs_of_pos hpx, abs_of_pos hpy]
    · rw [compare_gt_iff_gt.2 ((toRat_neg_of_negative h' hy).trans (toRat_pos h hx))]
      simp [compare, hx, hy, h, h']
    · rw [compare_lt_iff_lt.2 ((toRat_neg_of_negative h hx).trans (toRat_pos h' hy))]
      simp [compare, hx, hy, h, h']
    · have hnx := toRat_neg_of_negative h hx
      have hny := toRat_neg_of_negative h' hy
      simp only [compare, hx, hy, h, h', if_false, compareMagnitude_eq hy hx, abs_of_neg hnx,
        abs_of_neg hny]
      have hanti : StrictAnti fun q : ℚ => -q := fun _ _ h => neg_lt_neg h
      rw [← cmp_eq_compare, ← cmp_eq_compare]
      exact hanti.cmp_map_eq _ _

theorem le_iff (x y : Number) : x ≤ y ↔ x.toRat ≤ y.toRat := by
  change x.compare y ≠ .gt ↔ _
  rw [compare_eq, Ne, compare_gt_iff_gt, not_lt]

theorem lt_iff (x y : Number) : x < y ↔ x.toRat < y.toRat := by
  change x.compare y = .lt ↔ _
  rw [compare_eq, compare_lt_iff_lt]

theorem sameValue_iff (x y : Number) : x.sameValue y = true ↔ x.toRat = y.toRat := by
  rw [sameValue, beq_iff_eq, compare_eq, compare_eq_iff_eq]

/-! ## Whole numbers next to a value -/

/-- A number without places is whole. -/
theorem toRat_eq_intCast {x : Number} (h : 0 ≤ x.exponent) :
    x.toRat = ((x.signedCoefficient * 10 ^ x.exponent.toNat : ℤ) : ℚ) := by
  have hexp : x.exponent = (x.exponent.toNat : ℤ) := by omega
  rw [toRat, hexp, zpow_natCast]
  push_cast
  rfl

theorem floor_eq (x : Number) : x.floor = ⌊x.toRat⌋ := by
  rcases le_or_gt 0 x.exponent with h | h
  · rw [floor, if_pos h, toRat_eq_intCast h, Int.floor_intCast]
  · have hexp : x.exponent = -((-x.exponent).toNat : ℤ) := by omega
    have hvalue : x.toRat = (x.signedCoefficient : ℚ) / ((10 ^ (-x.exponent).toNat : ℕ) : ℚ) := by
      rw [toRat, hexp, zpow_neg, zpow_natCast, neg_neg, Int.toNat_natCast]
      push_cast
      rw [div_eq_mul_inv]
    rw [floor, if_neg (not_le.2 h), hvalue, Rat.floor_intCast_div_natCast,
      Int.fdiv_eq_ediv_of_nonneg _ (by positivity)]
    push_cast
    rfl

theorem ceil_eq (x : Number) : x.ceil = ⌈x.toRat⌉ := by
  rw [ceil, floor_eq, toRat_neg, Int.floor_neg, neg_neg]

end Number

end MemoryLimit
