import Mathlib
import MemoryLimit.Proofs.Decimal.Rounding

/-!
# Arithmetic is rounded arithmetic

Sums, products and halves, as they are computed on digits, are the exact values rounded once to
the digits of the context. They have a result wherever the values stay away from the limits of
the exponent range, and its exponent is not smaller than those of the operands, a half's by one
at most.

## Main definitions

* `Context.IsResult` — a number is an exact value rounded to the digits of a context.

## Main statements

* `Context.finish_spec`, `Context.add_spec`, `Context.mul_spec`, `Context.half_spec` — the
  operations.
-/
namespace MemoryLimit

open Text
open Number (ten_zpow_pos)

namespace Context

variable (ctx : Context)

/-- The number is an exact value rounded to the digits of the context, and its last digit stands
in a place from `least` on. -/
structure IsResult (least : ℤ) (v : ℚ) (r : Number) : Prop where
  rounds : Rounds ctx.precision v r.toRat
  fits : r.coefficient < 10 ^ ctx.precision
  least_le : least ≤ r.exponent

variable {ctx}

/-! ## Bringing a value into the context -/

/-- Dropping a carry keeps the value and leaves no digit too many. -/
theorem dropCarry_spec (hp : 0 < ctx.precision) {q : ℕ} {u : ℤ} (h0 : q ≠ 0)
    (hq : q ≤ 10 ^ ctx.precision) :
    ((ctx.dropCarry q u).1 : ℚ) * 10 ^ (ctx.dropCarry q u).2 = q * (10 : ℚ) ^ u ∧
      (ctx.dropCarry q u).1 < 10 ^ ctx.precision ∧ (ctx.dropCarry q u).1 ≠ 0 ∧
      u ≤ (ctx.dropCarry q u).2 := by
  simp only [dropCarry]
  split <;> rename_i h
  · have heq : q = 10 ^ ctx.precision := by
      refine le_antisymm hq ?_
      by_contra hlt
      exact absurd ((digitCount_le_iff hp).2 (not_le.1 hlt)) (not_le.2 h)
    have hpow : q = 10 ^ (ctx.precision - 1) * 10 := by
      rw [heq, ← pow_succ, Nat.sub_add_cancel hp]
    have hdiv : q / 10 = 10 ^ (ctx.precision - 1) := by
      rw [hpow, Nat.mul_div_cancel _ (by norm_num)]
    refine ⟨?_, ?_, ?_, by omega⟩
    · rw [hdiv, zpow_add_one₀ (by norm_num), hpow]
      push_cast
      ring
    · rw [hdiv]
      exact Nat.pow_lt_pow_right (by norm_num) (by omega)
    · rw [hdiv]
      positivity
  · exact ⟨rfl, (digitCount_le_iff hp).1 (not_lt.1 h), h0, le_rfl⟩

/-- Numbers of one sign round as their magnitudes do. -/
theorem rounds_toRat_of_magnitude {p : ℕ} {x r : Number} (hs : r.negative = x.negative)
    (h : Rounds p (x.coefficient * (10 : ℚ) ^ x.exponent) (r.coefficient * (10 : ℚ) ^ r.exponent)) :
    Rounds p x.toRat r.toRat := by
  cases hx : x.negative
  · rwa [Number.toRat_of_nonnegative hx, Number.toRat_of_nonnegative (hs.trans hx)]
  · rw [Number.toRat_of_negative hx, Number.toRat_of_negative (hs.trans hx)]
    exact h.neg

/-- Numbers of one sign are as far apart as their magnitudes are. -/
theorem abs_toRat_sub_toRat {x r : Number} (hs : r.negative = x.negative) :
    |r.toRat - x.toRat| =
      |r.coefficient * (10 : ℚ) ^ r.exponent - x.coefficient * (10 : ℚ) ^ x.exponent| := by
  cases hx : x.negative
  · rw [Number.toRat_of_nonnegative hx, Number.toRat_of_nonnegative (hs.trans hx)]
  · rw [Number.toRat_of_negative hx, Number.toRat_of_negative (hs.trans hx), neg_sub_neg,
      abs_sub_comm]

/-- Cutting the digits off that are too many for the context is rounding. -/
theorem dropCarry_roundHalfEven_spec (hp : 0 < ctx.precision) {x : Number} {k : ℕ}
    (h0 : x.coefficient ≠ 0) (hk : digitCount x.coefficient = ctx.precision + k) :
    ∃ r : Number, ctx.dropCarry (roundHalfEven x.coefficient (10 ^ k)) (x.exponent + k) =
        (r.coefficient, r.exponent) ∧
      r.negative = x.negative ∧ r.coefficient ≠ 0 ∧ ctx.IsResult x.exponent x.toRat r ∧
      2 * |r.toRat - x.toRat| * 10 ^ (ctx.precision - 1) ≤ |x.toRat| := by
  have hlow : 10 ^ (ctx.precision - 1) * 10 ^ k ≤ x.coefficient := by
    rw [← pow_add, show ctx.precision - 1 + k = digitCount x.coefficient - 1 by omega]
    exact ten_pow_le_of_ne_zero h0
  have hhigh : x.coefficient ≤ 10 ^ ctx.precision * 10 ^ k := by
    rw [← pow_add, ← hk]
    exact (lt_ten_pow_digitCount _).le
  have hq0 : roundHalfEven x.coefficient (10 ^ k) ≠ 0 := by
    have hle := le_roundHalfEven (by positivity) hlow
    have hpos : 0 < 10 ^ (ctx.precision - 1) := by positivity
    omega
  have hq : roundHalfEven x.coefficient (10 ^ k) ≤ 10 ^ ctx.precision :=
    roundHalfEven_le_of_le (by positivity) hhigh
  obtain ⟨hvalue, hfits, hc0, hexp⟩ := dropCarry_spec hp (u := x.exponent + k) hq0 hq
  have hround := rounds_roundHalfEven hp hlow x.exponent
  have hhalf := two_mul_abs_roundHalfEven_sub_mul_le hlow x.exponent
  rw [← hvalue] at hround hhalf
  rcases hcut : ctx.dropCarry (roundHalfEven x.coefficient (10 ^ k)) (x.exponent + k) with ⟨c, u⟩
  rw [hcut] at hfits hc0 hexp hround hhalf
  let r : Number := ⟨x.negative, c, u⟩
  have hdist := abs_toRat_sub_toRat (x := x) (r := r) rfl
  refine ⟨r, rfl, rfl, hc0, ⟨rounds_toRat_of_magnitude rfl hround, hfits, ?_⟩, ?_⟩
  · exact le_trans (by omega) hexp
  · rw [hdist, Number.abs_toRat]
    rwa [abs_of_nonneg (by positivity : (0 : ℚ) ≤ x.coefficient * 10 ^ x.exponent)] at hhalf

/-- **Bringing a value into the context rounds it**, if it is not too large and its last digit
is not too small for the context. The error is at most half a unit in the last place. -/
theorem finish_spec (hp : 0 < ctx.precision) (least : ℤ) {x : Number}
    (hmin : ctx.minUnit ≤ x.exponent) (hleast : least ≤ x.exponent) (hmax : least ≤ ctx.maxExponent)
    (hbig : |x.toRat| ≤ (10 : ℚ) ^ ctx.maxExponent) :
    ∃ r, ctx.finish x = .ok r ∧ ctx.IsResult least x.toRat r ∧
      2 * |r.toRat - x.toRat| * 10 ^ (ctx.precision - 1) ≤ |x.toRat| := by
  by_cases h0 : x.coefficient = 0
  · refine ⟨_, by rw [finish, if_pos h0], ⟨?_, ?_, ?_⟩, ?_⟩
    · rw [(Number.toRat_eq_zero_iff _).2 h0, (Number.toRat_eq_zero_iff _).2 (by simpa using h0)]
      exact .refl _ _
    · simp only [h0]
      positivity
    · simp only
      omega
    · rw [(Number.toRat_eq_zero_iff x).2 h0, (Number.toRat_eq_zero_iff _).2 (by simpa using h0)]
      simp
  have hadjusted : ∀ {y : Number}, y.coefficient ≠ 0 → |y.toRat| ≤ (10 : ℚ) ^ ctx.maxExponent →
      ¬ ctx.maxExponent < y.adjusted := by
    intro y hy0 hy
    have hpow := (Number.ten_zpow_adjusted_le hy0).trans hy
    exact not_lt.2 ((zpow_le_zpow_iff_right₀ (by norm_num)).1 hpow)
  rw [finish, if_neg h0, if_neg (hadjusted h0 hbig)]
  by_cases hunit : ctx.unitFor x.coefficient x.exponent ≤ x.exponent
  · refine ⟨x, by rw [if_pos hunit], ⟨.refl _ _, ?_, hleast⟩, by simp⟩
    refine (digitCount_le_iff hp).1 ?_
    simp only [unitFor] at hunit
    omega
  · obtain ⟨k, hk⟩ : ∃ k : ℕ, digitCount x.coefficient = ctx.precision + k := by
      refine ⟨digitCount x.coefficient - ctx.precision, ?_⟩
      simp only [unitFor] at hunit
      omega
    have hunitk : ctx.unitFor x.coefficient x.exponent = x.exponent + k := by
      simp only [unitFor] at hunit ⊢
      omega
    have htoUnit : toUnit x.coefficient x.exponent (x.exponent + k) =
        roundHalfEven x.coefficient (10 ^ k) := by
      rw [toUnit, add_sub_cancel_left, Int.toNat_natCast, if_neg (by omega)]
    obtain ⟨r, hcut, hsign, hr0, hresult, hhalf⟩ := dropCarry_roundHalfEven_spec hp h0 hk
    have hrbig := hresult.rounds.abs_le_of_le (representable_ten_zpow _ _) hbig
    refine ⟨r, ?_, ⟨hresult.rounds, hresult.fits, hleast.trans hresult.least_le⟩, hhalf⟩
    rw [if_neg hunit, hunitk, htoUnit, hcut]
    simp only [← hsign, Bool.and_eq_true, decide_eq_true_eq]
    rw [if_neg (fun h => hadjusted hr0 hrbig h.2)]

/-! ## Sums -/

/-- Writing a number with a smaller exponent keeps its value. -/
theorem toRat_refine {x : Number} {e : ℤ} (h : e ≤ x.exponent) : (refine x e).toRat = x.toRat := by
  have hvalue : ((x.coefficient * 10 ^ (x.exponent - e).toNat : ℕ) : ℚ) * 10 ^ e =
      x.coefficient * (10 : ℚ) ^ x.exponent := by
    rw [Number.ten_zpow_of_le h]
    push_cast
    ring
  cases hs : x.negative
  · rw [Number.toRat_of_nonnegative hs, Number.toRat_of_nonnegative (by simpa [refine] using hs)]
    exact hvalue
  · rw [Number.toRat_of_negative hs, Number.toRat_of_negative (by simpa [refine] using hs)]
    exact congrArg Neg.neg hvalue

/-- An integer written as a sign and a magnitude, whatever the sign of zero is. -/
theorem signedCoefficient_natAbs (s e : ℤ) (zeroSign : Bool) :
    Number.signedCoefficient ⟨if s = 0 then zeroSign else s < 0, s.natAbs, e⟩ = s := by
  rcases lt_trichotomy s 0 with hneg | rfl | hpos
  · simp [Number.signedCoefficient, hneg, hneg.ne, abs_of_neg hneg]
  · simp [Number.signedCoefficient]
  · simp [Number.signedCoefficient, hpos.ne', not_lt.2 hpos.le, abs_of_pos hpos]

/-- Numbers of one exponent are added exactly. -/
theorem toRat_addAligned {x y : Number} (h : x.exponent = y.exponent) :
    (addAligned x y).toRat = x.toRat + y.toRat := by
  have hsum : (addAligned x y).signedCoefficient = x.signedCoefficient + y.signedCoefficient :=
    signedCoefficient_natAbs _ _ _
  have hexp : (addAligned x y).exponent = x.exponent := rfl
  rw [Number.toRat, hsum, hexp, Number.toRat, Number.toRat, ← h]
  push_cast
  ring

/-- The place of the first digit is not below that of the last one. -/
theorem exponent_le_adjusted (x : Number) : x.exponent ≤ x.adjusted := by
  have := digitCount_pos x.coefficient
  simp only [Number.adjusted]
  omega

theorem stickyUnit_lt (x : Number) : ctx.stickyUnit x < x.exponent := by
  simp only [stickyUnit]
  omega

/-- An operand has at least two digits more above the place of the mark than the context keeps. -/
theorem ten_zpow_stickyUnit_le {x : Number} (h0 : x.coefficient ≠ 0) :
    (10 : ℚ) ^ (ctx.precision + 1) * 10 ^ ctx.stickyUnit x ≤ |x.toRat| := by
  rw [← zpow_natCast, ← zpow_add₀ (by norm_num)]
  refine (zpow_le_zpow_right₀ (by norm_num) ?_).trans (Number.ten_zpow_adjusted_le h0)
  simp only [stickyUnit, Number.adjusted]
  push_cast
  omega

/-- Rounding the exact sum of an operand and another one of no greater exponent, which may be
replaced by the mark if it is far below. -/
theorem addOrdered_spec (hp : 0 < ctx.precision) (least : ℤ) {x y : Number}
    (hx0 : x.coefficient ≠ 0) (hy0 : y.coefficient ≠ 0) (hexp : y.exponent ≤ x.exponent)
    (hmin : ctx.minUnit ≤ y.exponent) (hleast : least ≤ y.exponent) (hmax : least ≤ ctx.maxExponent)
    (hxbig : 2 * |x.toRat| ≤ (10 : ℚ) ^ ctx.maxExponent)
    (hybig : 2 * |y.toRat| ≤ (10 : ℚ) ^ ctx.maxExponent) :
    ∃ r, ctx.addOrdered x y = .ok r ∧ ctx.IsResult least (x.toRat + y.toRat) r := by
  -- the exact sum of `x` and the second operand as it is used
  have hfinish : ∀ z : Number, z.exponent ≤ x.exponent → y.exponent ≤ z.exponent →
      2 * |z.toRat| ≤ (10 : ℚ) ^ ctx.maxExponent →
      ∃ r, ctx.finish (addAligned (refine x z.exponent) z) = .ok r ∧
        ctx.IsResult least (x.toRat + z.toRat) r ∧
        2 * |r.toRat - (x.toRat + z.toRat)| * 10 ^ (ctx.precision - 1) ≤ |x.toRat + z.toRat| := by
    intro z hzx hyz hz
    have hvalue : (addAligned (refine x z.exponent) z).toRat = x.toRat + z.toRat := by
      rw [toRat_addAligned (by rfl), toRat_refine hzx]
    have hbound : |x.toRat + z.toRat| ≤ (10 : ℚ) ^ ctx.maxExponent :=
      (abs_add_le _ _).trans (by linarith)
    rw [← hvalue] at hbound ⊢
    exact finish_spec hp least (hmin.trans hyz) (hleast.trans hyz) hmax hbound
  rw [addOrdered, condense]
  split <;> rename_i hsmall
  · have hypos := ten_zpow_pos (ctx.stickyUnit x)
    let z : Number := ⟨y.negative, 1, ctx.stickyUnit x⟩
    have hz : |z.toRat| = (10 : ℚ) ^ ctx.stickyUnit x := by
      rw [Number.abs_toRat, Nat.cast_one, one_mul]
    have hzx : |z.toRat| ≤ |x.toRat| := by
      rw [hz]
      refine (le_mul_of_one_le_left hypos.le ?_).trans (ten_zpow_stickyUnit_le hx0)
      exact one_le_pow₀ (by norm_num)
    have hyz : y.exponent ≤ ctx.stickyUnit x := (exponent_le_adjusted y).trans hsmall.le
    obtain ⟨r, hr, hresult, hhalf⟩ := hfinish z (stickyUnit_lt x).le hyz (by linarith)
    refine ⟨r, hr, ⟨?_, hresult.fits, hresult.least_le⟩⟩
    refine hresult.rounds.of_sticky hp hhalf rfl (stickyUnit_lt x) (ten_zpow_stickyUnit_le hx0)
      ?_ hz.le ?_
    · exact (Number.abs_toRat_lt y).le.trans (zpow_le_zpow_right₀ (by norm_num) hsmall)
    · cases hs : y.negative
      · exact .inl ⟨Number.toRat_pos hs hy0, Number.toRat_pos hs one_ne_zero⟩
      · exact .inr
          ⟨Number.toRat_neg_of_negative hs hy0, Number.toRat_neg_of_negative hs one_ne_zero⟩
  · obtain ⟨r, hr, hresult, -⟩ := hfinish y hexp le_rfl hybig
    exact ⟨r, hr, hresult⟩

theorem addZero_spec (hp : 0 < ctx.precision) (least : ℤ) {zeroExponent : ℤ} {y : Number}
    (hzmin : ctx.minUnit ≤ zeroExponent) (hmin : ctx.minUnit ≤ y.exponent)
    (hzleast : least ≤ zeroExponent) (hleast : least ≤ y.exponent) (hmax : least ≤ ctx.maxExponent)
    (hbig : |y.toRat| ≤ (10 : ℚ) ^ ctx.maxExponent) :
    ∃ r, ctx.addZero zeroExponent y = .ok r ∧ ctx.IsResult least y.toRat r := by
  set unit := max (min zeroExponent y.exponent) (y.exponent - ctx.precision - 1) with hunit
  have hvalue : (refine y unit).toRat = y.toRat := toRat_refine (by omega)
  have hexp : (refine y unit).exponent = unit := rfl
  obtain ⟨r, hr, hresult, -⟩ := finish_spec hp least (x := refine y unit) (by omega)
    (by omega) hmax (by rwa [hvalue])
  exact ⟨r, hr, hvalue ▸ hresult⟩

/-- **A sum is the exact sum, rounded.** -/
theorem add_spec (hp : 0 < ctx.precision) (least : ℤ) {x y : Number}
    (hxmin : ctx.minUnit ≤ x.exponent) (hymin : ctx.minUnit ≤ y.exponent)
    (hxleast : least ≤ x.exponent) (hyleast : least ≤ y.exponent) (hmax : least ≤ ctx.maxExponent)
    (hxbig : 2 * |x.toRat| ≤ (10 : ℚ) ^ ctx.maxExponent)
    (hybig : 2 * |y.toRat| ≤ (10 : ℚ) ^ ctx.maxExponent) :
    ∃ r, ctx.add x y = .ok r ∧ ctx.IsResult least (x.toRat + y.toRat) r := by
  have hxbig' : |x.toRat| ≤ (10 : ℚ) ^ ctx.maxExponent := by linarith [abs_nonneg x.toRat]
  have hybig' : |y.toRat| ≤ (10 : ℚ) ^ ctx.maxExponent := by linarith [abs_nonneg y.toRat]
  rw [add]
  by_cases hx0 : x.coefficient = 0
  · have hx : x.toRat = 0 := (Number.toRat_eq_zero_iff x).2 hx0
    rw [if_pos hx0, hx, zero_add]
    by_cases hy0 : y.coefficient = 0
    · have hy : y.toRat = 0 := (Number.toRat_eq_zero_iff y).2 hy0
      let z : Number := ⟨x.negative && y.negative, 0, min x.exponent y.exponent⟩
      have hz : z.toRat = 0 := (Number.toRat_eq_zero_iff z).2 rfl
      have hzexp : z.exponent = min x.exponent y.exponent := rfl
      obtain ⟨r, hr, hresult, -⟩ := finish_spec hp least (x := z) (by omega) (by omega)
        hmax (by rw [hz, abs_zero]; exact (ten_zpow_pos _).le)
      rw [if_pos hy0, hy, ← hz]
      exact ⟨r, hr, hresult⟩
    · rw [if_neg hy0]
      exact addZero_spec hp least hxmin hymin hxleast hyleast hmax hybig'
  · rw [if_neg hx0]
    by_cases hy0 : y.coefficient = 0
    · rw [if_pos hy0, (Number.toRat_eq_zero_iff y).2 hy0, add_zero]
      exact addZero_spec hp least hymin hxmin hyleast hxleast hmax hxbig'
    · rw [if_neg hy0]
      split <;> rename_i hexp
      · exact addOrdered_spec hp least hx0 hy0 hexp hymin hyleast hmax hxbig hybig
      · rw [add_comm x.toRat]
        exact addOrdered_spec hp least hy0 hx0 (by omega) hxmin hxleast hmax hybig hxbig

/-! ## Products -/

/-- **A product is the exact product, rounded.** -/
theorem mul_spec (hp : 0 < ctx.precision) (least : ℤ) {x y : Number}
    (hmin : ctx.minUnit ≤ x.exponent + y.exponent) (hleast : least ≤ x.exponent + y.exponent)
    (hmax : least ≤ ctx.maxExponent) (hbig : |x.toRat * y.toRat| ≤ (10 : ℚ) ^ ctx.maxExponent) :
    ∃ r, ctx.mul x y = .ok r ∧ ctx.IsResult least (x.toRat * y.toRat) r := by
  let z : Number :=
    ⟨x.negative != y.negative, x.coefficient * y.coefficient, x.exponent + y.exponent⟩
  have hz : z.toRat = x.toRat * y.toRat := by
    have hsigns : z.signedCoefficient = x.signedCoefficient * y.signedCoefficient := by
      cases hx : x.negative <;> cases hy : y.negative <;>
        simp [z, Number.signedCoefficient, hx, hy]
    rw [Number.toRat, hsigns, zpow_add₀ (by norm_num), Number.toRat, Number.toRat]
    push_cast
    ring
  obtain ⟨r, hr, hresult, -⟩ := finish_spec hp least (x := z) hmin hleast hmax (by rwa [hz])
  exact ⟨r, hr, hz ▸ hresult⟩

/-! ## Halves -/

/-- Dropping zeros keeps the value, and stops at the exponent aimed at or before a digit that is not
zero. -/
theorem dropZeros_spec (fuel c : ℕ) (e ideal : ℤ) :
    (dropZeros fuel c e ideal).1 * 10 ^ ((dropZeros fuel c e ideal).2 - e).toNat = c ∧
      e ≤ (dropZeros fuel c e ideal).2 ∧
      ((dropZeros fuel c e ideal).2 = e + fuel ∨ ideal ≤ (dropZeros fuel c e ideal).2 ∨
        (dropZeros fuel c e ideal).1 % 10 ≠ 0) := by
  induction fuel generalizing c e with
  | zero => simp [dropZeros]
  | succ fuel ih =>
    rw [dropZeros]
    split <;> rename_i h
    · obtain ⟨hvalue, hle, hstop⟩ := ih (c / 10) (e + 1)
      set cut := dropZeros fuel (c / 10) (e + 1) ideal
      simp only [Bool.and_eq_true, decide_eq_true_eq] at h
      refine ⟨?_, by omega, ?_⟩
      · have hexp : (cut.2 - e).toNat = (cut.2 - (e + 1)).toNat + 1 := by omega
        rw [hexp, pow_succ, ← mul_assoc, hvalue]
        omega
      · rcases hstop with hend | hideal | hdigit
        · exact .inl (by push_cast; omega)
        · exact .inr (.inl hideal)
        · exact .inr (.inr hdigit)
    · simp only [Bool.and_eq_true, decide_eq_true_eq, not_and] at h
      refine ⟨by simp, le_rfl, ?_⟩
      by_cases hideal : ideal ≤ e
      · exact .inr (.inl hideal)
      · exact .inr (.inr (h (not_le.1 hideal)))

/-- Halving a coefficient with zeros appended leaves at most one place more than there was. -/
theorem dropZeros_half {c n : ℕ} {e : ℤ} (hn : 0 < n) :
    ((dropZeros n (c * 10 ^ n / 2) (e - n) e).1 : ℚ) *
          10 ^ (dropZeros n (c * 10 ^ n / 2) (e - n) e).2 =
        c * (10 : ℚ) ^ e / 2 ∧
      e - 1 ≤ (dropZeros n (c * 10 ^ n / 2) (e - n) e).2 := by
  obtain ⟨m, rfl⟩ : ∃ m, n = m + 1 := ⟨n - 1, by omega⟩
  have hhalf : c * 10 ^ (m + 1) / 2 = c * 5 * 10 ^ m := by
    rw [pow_succ, show c * (10 ^ m * 10) = c * 5 * 10 ^ m * 2 by ring, Nat.mul_div_cancel _ two_pos]
  obtain ⟨hvalue, hle, hstop⟩ := dropZeros_spec (m + 1) (c * 5 * 10 ^ m) (e - (m + 1 : ℕ)) e
  rw [hhalf]
  set cut := dropZeros (m + 1) (c * 5 * 10 ^ m) (e - (m + 1 : ℕ)) e
  obtain ⟨j, hj⟩ : ∃ j : ℕ, cut.2 = e - (m + 1 : ℕ) + j :=
    ⟨(cut.2 - (e - (m + 1 : ℕ))).toNat, by omega⟩
  rw [hj, add_sub_cancel_left, Int.toNat_natCast] at hvalue
  constructor
  · rw [hj, Number.ten_zpow_add_natCast, ← mul_assoc]
    have hcast : (cut.1 : ℚ) * 10 ^ j = c * 5 * 10 ^ m := by exact_mod_cast hvalue
    rw [hcast, sub_eq_add_neg, zpow_add₀ (by norm_num), zpow_neg, zpow_natCast, pow_succ]
    field_simp
    ring
  · by_contra hlt
    have hjm : j + 1 ≤ m := by omega
    have hdigit : cut.1 % 10 ≠ 0 := by
      rcases hstop with hend | hideal | hdigit
      · omega
      · omega
      · exact hdigit
    obtain ⟨i, rfl⟩ : ∃ i, m = i + 1 + j := ⟨m - j - 1, by omega⟩
    rw [pow_add, ← mul_assoc] at hvalue
    have hcut := Nat.eq_of_mul_eq_mul_right (by positivity) hvalue
    rw [hcut, pow_succ, ← mul_assoc, Nat.mul_mod_left] at hdigit
    exact hdigit rfl

/-- **A half is the exact half, rounded.** -/
theorem half_spec (hp : 0 < ctx.precision) (least : ℤ) {x : Number}
    (hfits : x.coefficient < 10 ^ ctx.precision) (hmin : ctx.minUnit ≤ x.exponent - 1)
    (hleast : least ≤ x.exponent - 1) (hmax : least ≤ ctx.maxExponent)
    (hbig : |x.toRat| ≤ (10 : ℚ) ^ ctx.maxExponent) :
    ∃ r, ctx.half x = .ok r ∧ ctx.IsResult least (x.toRat / 2) r := by
  have htwo : (2 : Number) = ⟨false, 2, 0⟩ := rfl
  -- the number given to `finish`
  have hfinish : ∀ z : Number, z.toRat = x.toRat / 2 → x.exponent - 1 ≤ z.exponent →
      ∃ r, ctx.finish z = .ok r ∧ ctx.IsResult least (x.toRat / 2) r := by
    intro z hz hexp
    have hzbig : |z.toRat| ≤ (10 : ℚ) ^ ctx.maxExponent := by
      rw [hz, abs_div, abs_two]
      linarith [abs_nonneg x.toRat]
    obtain ⟨r, hr, hresult, -⟩ :=
      finish_spec hp least (hmin.trans hexp) (hleast.trans hexp) hmax hzbig
    exact ⟨r, hr, hz ▸ hresult⟩
  rw [half, divNumber, htwo, if_neg (by norm_num)]
  by_cases h0 : x.coefficient = 0
  · rw [if_pos h0]
    refine hfinish _ ?_ (by simp)
    rw [(Number.toRat_eq_zero_iff x).2 h0, zero_div, Number.toRat_eq_zero_iff]
  · rw [if_neg h0]
    have hdigits : digitCount x.coefficient ≤ ctx.precision := (digitCount_le_iff hp).2 hfits
    obtain ⟨n, hn⟩ : ∃ n : ℕ,
        (digitCount 2 : ℤ) - digitCount x.coefficient + ctx.precision + 1 = n ∧ 0 < n := by
      have hone : digitCount 2 = 1 := rfl
      exact ⟨ctx.precision + 2 - digitCount x.coefficient, by omega, by omega⟩
    have heven : x.coefficient * 10 ^ n % 2 = 0 :=
      Nat.mod_eq_zero_of_dvd ((dvd_pow (by norm_num) hn.2.ne').mul_left _)
    obtain ⟨hvalue, hexp⟩ := dropZeros_half (c := x.coefficient) (e := x.exponent) hn.2
    simp only [divNonzero, hn.1, Int.toNat_natCast, Int.toNat_neg_natCast, pow_zero, mul_one, heven,
      if_true, sub_zero, Bool.bne_false]
    refine hfinish _ ?_ hexp
    cases hs : x.negative
    · rw [Number.toRat_of_nonnegative rfl, hvalue, Number.toRat_of_nonnegative hs]
    · rw [Number.toRat_of_negative rfl, hvalue, Number.toRat_of_negative hs]
      ring

end Context

end MemoryLimit
