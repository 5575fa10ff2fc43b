import Mathlib
import MemoryLimit.Proofs.Decimal.Value
import MemoryLimit.Decimal.Context

/-!
# Rounding to a number of digits

A result is the exact value rounded to the digits of the context. What is used of rounding is
said of rationals: a rounded value lies on the same side of every value that needs no rounding,
and it is close to the exact one. Such a statement holds of sums whose smaller operand is
replaced by a mark, too, so nothing below depends on how a sum is computed.

## Main definitions

* `Representable p` — the values with at most `p` digits.
* `Rounds p v r` — `r` is `v` rounded to `p` digits.

## Main statements

* `Rounds.eq_of_representable` — a value that needs no rounding is kept.
* `rounds_roundHalfEven`, `two_mul_abs_roundHalfEven_sub_mul_le` — cutting digits off half to
  even is rounding, with an error of at most half a unit.
* `Rounds.of_sticky` — the operand that is far below the last digit matters by its sign alone.
* `Rounds.representable_double` — the double of a rounded half needs no rounding.
-/
namespace MemoryLimit

open Number (ten_zpow_pos ten_zpow_add_natCast ten_zpow_of_le)

/-! ## Halves to even -/

theorem div_le_roundHalfEven (n d : ℕ) : n / d ≤ roundHalfEven n d := by
  simp only [roundHalfEven]
  split <;> omega

theorem roundHalfEven_le (n d : ℕ) : roundHalfEven n d ≤ n / d + 1 := by
  simp only [roundHalfEven]
  split <;> omega

/-- A whole multiple at most the number is at most the rounded quotient. -/
theorem le_roundHalfEven {n d m : ℕ} (hd : 0 < d) (h : m * d ≤ n) : m ≤ roundHalfEven n d :=
  ((Nat.le_div_iff_mul_le hd).2 h).trans (div_le_roundHalfEven n d)

/-- A whole multiple at least the number is at least the rounded quotient. -/
theorem roundHalfEven_le_of_le {n d m : ℕ} (hd : 0 < d) (h : n ≤ m * d) :
    roundHalfEven n d ≤ m := by
  rcases h.eq_or_lt with rfl | hlt
  · simp [roundHalfEven, Nat.mul_div_cancel m hd, hd.ne]
  · exact (roundHalfEven_le n d).trans (Nat.div_lt_of_lt_mul (by rwa [mul_comm]))

/-- The rounded quotient is at most half a unit away. -/
theorem two_mul_abs_roundHalfEven_sub_le {n d : ℕ} (hd : 0 < d) :
    2 * |((roundHalfEven n d * d : ℕ) : ℤ) - n| ≤ d := by
  have hsplit := Nat.div_add_mod n d
  have hlt := Nat.mod_lt n hd
  have hcomm : d * (n / d) = n / d * d := mul_comm _ _
  have hup : (n / d + 1) * d = n / d * d + d := by ring
  simp only [roundHalfEven]
  split <;> rename_i h
  · have hr : d ≤ 2 * (n % d) := by
      simp only [Bool.or_eq_true, Bool.and_eq_true, decide_eq_true_eq, beq_iff_eq] at h
      omega
    rw [hup, abs_of_nonneg (by omega)]
    omega
  · have hr : 2 * (n % d) ≤ d := by
      simp only [Bool.or_eq_true, not_or, decide_eq_true_eq] at h
      omega
    rw [abs_of_nonpos (by omega)]
    omega

/-- A whole quotient is kept. -/
theorem roundHalfEven_mul {k d : ℕ} (hd : 0 < d) : roundHalfEven (k * d) d = k :=
  le_antisymm (roundHalfEven_le_of_le hd le_rfl) (le_roundHalfEven hd le_rfl)

/-- From halfway above an odd number on, a quotient is rounded up. -/
theorem succ_le_roundHalfEven_iff {n d k : ℕ} (hd : 0 < d) (hk : k % 2 = 1) :
    k + 1 ≤ roundHalfEven n d ↔ (2 * k + 1) * d ≤ 2 * n := by
  have hsplit := Nat.div_add_mod n d
  have hlt := Nat.mod_lt n hd
  have hexpand : (2 * k + 1) * d = 2 * (d * k) + d := by ring
  rw [hexpand]
  rcases lt_trichotomy (n / d) k with hless | rfl | hmore
  · have hmul : d * (n / d) + d ≤ d * k := by
      rw [← Nat.mul_succ]
      exact Nat.mul_le_mul_left d hless
    have hround := roundHalfEven_le n d
    constructor <;> intro h <;> omega
  · simp only [roundHalfEven, Bool.or_eq_true, Bool.and_eq_true, decide_eq_true_eq, beq_iff_eq]
    split <;> omega
  · have hmul : d * k + d ≤ d * (n / d) := by
      rw [← Nat.mul_succ]
      exact Nat.mul_le_mul_left d hmore
    have hround := div_le_roundHalfEven n d
    constructor <;> intro h <;> omega

/-! ## Values with few digits -/

/-- The values that can be written with `p` digits: whole multiples of a power of ten, of at most
`10 ^ p` units. -/
def Representable (p : ℕ) (v : ℚ) : Prop :=
  ∃ m u : ℤ, |m| ≤ 10 ^ p ∧ v = m * (10 : ℚ) ^ u

theorem representable_int_mul {p : ℕ} {m : ℤ} (h : |m| ≤ 10 ^ p) (u : ℤ) :
    Representable p (m * (10 : ℚ) ^ u) :=
  ⟨m, u, h, rfl⟩

theorem representable_ten_zpow (p : ℕ) (u : ℤ) : Representable p ((10 : ℚ) ^ u) := by
  refine ⟨1, u, ?_, by simp⟩
  rw [abs_one]
  exact one_le_pow₀ (by norm_num)

theorem Representable.neg {p : ℕ} {v : ℚ} (h : Representable p v) : Representable p (-v) := by
  obtain ⟨m, u, hm, rfl⟩ := h
  exact ⟨-m, u, by rwa [abs_neg], by push_cast; ring⟩

/-- A number with at most `p` digits needs no rounding to `p` digits. -/
theorem Number.representable {p : ℕ} {x : Number} (h : x.coefficient < 10 ^ p) :
    Representable p x.toRat := by
  refine ⟨x.signedCoefficient, x.exponent, ?_, rfl⟩
  have habs : |x.signedCoefficient| = x.coefficient := by
    cases hs : x.negative <;> simp [signedCoefficient, hs]
  rw [habs]
  exact_mod_cast h.le

/-- From `10 ^ (p - 1)` units on, a value with `p` digits is a whole number of units. -/
theorem Representable.exists_eq_int_mul {p : ℕ} (hp : 0 < p) {v : ℚ} {u : ℤ}
    (h : Representable p v) (hv : (10 : ℚ) ^ (p - 1) * 10 ^ u ≤ |v|) :
    ∃ k : ℤ, v = k * (10 : ℚ) ^ u := by
  obtain ⟨m, t, hm, rfl⟩ := h
  rcases le_or_gt u t with hut | hut
  · refine ⟨m * 10 ^ (t - u).toNat, ?_⟩
    rw [ten_zpow_of_le hut]
    push_cast
    ring
  · -- the unit is coarser than the value's own, so the value is the least one allowed
    have hmq : |(m : ℚ)| ≤ (10 : ℚ) ^ p := by exact_mod_cast hm
    have hle : |(m : ℚ) * (10 : ℚ) ^ t| ≤ (10 : ℚ) ^ (p - 1) * 10 ^ u := by
      rw [abs_mul, abs_of_pos (ten_zpow_pos t)]
      calc |(m : ℚ)| * (10 : ℚ) ^ t ≤ (10 : ℚ) ^ p * 10 ^ t :=
            mul_le_mul_of_nonneg_right hmq (ten_zpow_pos t).le
        _ = (10 : ℚ) ^ (p - 1) * 10 ^ (t + 1) := by
            rw [zpow_add_one₀ (by norm_num), ← pow_sub_one_mul hp.ne' (10 : ℚ)]
            ring
        _ ≤ (10 : ℚ) ^ (p - 1) * 10 ^ u :=
            mul_le_mul_of_nonneg_left (zpow_le_zpow_right₀ (by norm_num) (by omega)) (by positivity)
    have heq := le_antisymm hle hv
    rcases abs_choice ((m : ℚ) * (10 : ℚ) ^ t) with hs | hs
    · exact ⟨10 ^ (p - 1), by rw [← hs, heq]; push_cast; rfl⟩
    · exact ⟨-10 ^ (p - 1), by rw [← neg_inj, ← hs, heq]; push_cast; ring⟩

/-! ## Rounded values -/

/-- `r` is `v` rounded to `p` digits: every value that needs no rounding is on the same side of
both, and they differ by less than a unit in the last place. -/
structure Rounds (p : ℕ) (v r : ℚ) : Prop where
  le_of_le : ∀ a, Representable p a → a ≤ v → a ≤ r
  ge_of_ge : ∀ a, Representable p a → v ≤ a → r ≤ a
  close : |r - v| * 10 ^ (p - 1) ≤ |v|

/-- **A value that needs no rounding is kept.** -/
theorem Rounds.eq_of_representable {p : ℕ} {v r : ℚ} (h : Rounds p v r)
    (hv : Representable p v) : r = v :=
  le_antisymm (h.ge_of_ge v hv le_rfl) (h.le_of_le v hv le_rfl)

theorem Rounds.refl (p : ℕ) (v : ℚ) : Rounds p v v :=
  ⟨fun _ _ h => h, fun _ _ h => h, by simp⟩

theorem Rounds.neg {p : ℕ} {v r : ℚ} (h : Rounds p v r) : Rounds p (-v) (-r) where
  le_of_le a ha hle := by
    have := h.ge_of_ge (-a) ha.neg (by linarith)
    linarith
  ge_of_ge a ha hle := by
    have := h.le_of_le (-a) ha.neg (by linarith)
    linarith
  close := by
    rw [abs_neg, neg_sub_neg, abs_sub_comm]
    exact h.close

/-- A rounded value is no larger in magnitude than a bound that needs no rounding. -/
theorem Rounds.abs_le_of_le {p : ℕ} {v r a : ℚ} (h : Rounds p v r) (ha : Representable p a)
    (hv : |v| ≤ a) : |r| ≤ a := by
  obtain ⟨hlow, hhigh⟩ := abs_le.1 hv
  exact abs_le.2 ⟨h.le_of_le (-a) ha.neg hlow, h.ge_of_ge a ha hhigh⟩

/-- A rounded value is no smaller in magnitude than a bound that needs no rounding. -/
theorem Rounds.le_abs_of_le {p : ℕ} {v r a : ℚ} (h : Rounds p v r) (ha : Representable p a)
    (hv : a ≤ |v|) : a ≤ |r| := by
  rcases le_abs.1 hv with hpos | hneg
  · exact (h.le_of_le a ha hpos).trans (le_abs_self r)
  · exact (h.neg.le_of_le a ha hneg).trans (neg_le_abs r)

/-- From the least value with a full number of digits on, only whole numbers of units need no
rounding. -/
theorem Representable.exists_eq_nat_mul {p : ℕ} (hp : 0 < p) {a : ℚ} {u : ℤ}
    (ha : Representable p a) (hle : (10 : ℚ) ^ (p - 1) * 10 ^ u ≤ a) :
    ∃ m : ℕ, a = m * (10 : ℚ) ^ u := by
  have hapos : 0 < a := lt_of_lt_of_le (by positivity) hle
  obtain ⟨j, rfl⟩ := ha.exists_eq_int_mul hp (hle.trans (le_abs_self a))
  have hj : 0 ≤ j := by
    by_contra hneg
    have : (j : ℚ) * 10 ^ u < 0 :=
      mul_neg_of_neg_of_pos (by exact_mod_cast not_le.1 hneg) (ten_zpow_pos _)
    linarith
  lift j to ℕ using hj
  exact ⟨j, by rw [Int.cast_natCast]⟩

/-- A coefficient from which `k` digits are cut and `p` remain is a value of at least `p` digits. -/
theorem le_natCast_mul_ten_zpow {p k c : ℕ} (hc : 10 ^ (p - 1) * 10 ^ k ≤ c) (e : ℤ) :
    (10 : ℚ) ^ (p - 1) * 10 ^ (e + k) ≤ c * (10 : ℚ) ^ e := by
  rw [ten_zpow_add_natCast, ← mul_assoc]
  exact mul_le_mul_of_nonneg_right (by exact_mod_cast hc) (ten_zpow_pos e).le

/-- Cutting digits off half to even errs by at most half a unit in the last place. -/
theorem two_mul_abs_roundHalfEven_sub_mul_le {p k c : ℕ} (hc : 10 ^ (p - 1) * 10 ^ k ≤ c) (e : ℤ) :
    2 * |roundHalfEven c (10 ^ k) * (10 : ℚ) ^ (e + k) - c * (10 : ℚ) ^ e| * 10 ^ (p - 1) ≤
      |c * (10 : ℚ) ^ e| := by
  set q := roundHalfEven c (10 ^ k) with hq
  have hint : 2 * |(q : ℚ) * 10 ^ k - c| ≤ 10 ^ k := by
    have := two_mul_abs_roundHalfEven_sub_le (n := c) (d := 10 ^ k) (by positivity)
    rw [← hq] at this
    exact_mod_cast this
  have hdiff : q * (10 : ℚ) ^ (e + k) - c * (10 : ℚ) ^ e = ((q : ℚ) * 10 ^ k - c) * 10 ^ e := by
    rw [ten_zpow_add_natCast]
    ring
  rw [hdiff, abs_mul, abs_of_pos (ten_zpow_pos e),
    abs_of_nonneg (mul_nonneg c.cast_nonneg (ten_zpow_pos e).le)]
  calc 2 * (|(q : ℚ) * 10 ^ k - c| * 10 ^ e) * 10 ^ (p - 1)
      = 2 * |(q : ℚ) * 10 ^ k - c| * (10 ^ (p - 1) * 10 ^ e) := by ring
    _ ≤ 10 ^ k * (10 ^ (p - 1) * 10 ^ e) := mul_le_mul_of_nonneg_right hint (by positivity)
    _ = 10 ^ (p - 1) * 10 ^ (e + k) := by rw [ten_zpow_add_natCast]; ring
    _ ≤ c * (10 : ℚ) ^ e := le_natCast_mul_ten_zpow hc e

/-- **Cutting digits off half to even is rounding.** -/
theorem rounds_roundHalfEven {p k c : ℕ} (hp : 0 < p) (hc : 10 ^ (p - 1) * 10 ^ k ≤ c) (e : ℤ) :
    Rounds p (c * (10 : ℚ) ^ e) (roundHalfEven c (10 ^ k) * (10 : ℚ) ^ (e + k)) where
  le_of_le a ha hle := by
    rcases le_or_gt a ((10 : ℚ) ^ (p - 1) * 10 ^ (e + k)) with hsmall | hlarge
    · refine hsmall.trans (mul_le_mul_of_nonneg_right ?_ (ten_zpow_pos _).le)
      exact_mod_cast le_roundHalfEven (by positivity) hc
    · obtain ⟨m, rfl⟩ := ha.exists_eq_nat_mul hp hlarge.le
      have hm : (m : ℚ) * 10 ^ k ≤ c := by
        rw [ten_zpow_add_natCast, ← mul_assoc] at hle
        exact le_of_mul_le_mul_right hle (ten_zpow_pos e)
      refine mul_le_mul_of_nonneg_right ?_ (ten_zpow_pos _).le
      exact_mod_cast le_roundHalfEven (by positivity) (by exact_mod_cast hm)
  ge_of_ge a ha hle := by
    obtain ⟨m, rfl⟩ := ha.exists_eq_nat_mul hp ((le_natCast_mul_ten_zpow hc e).trans hle)
    have hm : (c : ℚ) ≤ m * 10 ^ k := by
      rw [ten_zpow_add_natCast, ← mul_assoc] at hle
      exact le_of_mul_le_mul_right hle (ten_zpow_pos e)
    refine mul_le_mul_of_nonneg_right ?_ (ten_zpow_pos _).le
    exact_mod_cast roundHalfEven_le_of_le (by positivity) (by exact_mod_cast hm)
  close := by
    refine le_trans (mul_le_mul_of_nonneg_right ?_ (by positivity))
      (two_mul_abs_roundHalfEven_sub_mul_le hc e)
    linarith [abs_nonneg (roundHalfEven c (10 ^ k) * (10 : ℚ) ^ (e + k) - c * (10 : ℚ) ^ e)]

/-! ## Operands far below the last digit -/

/-- Near a value with many more digits than are kept, no other value needs no rounding. -/
theorem Representable.eq_of_abs_sub_le {p : ℕ} {a x : ℚ} {s e c : ℤ} (ha : Representable p a)
    (hx : x = c * (10 : ℚ) ^ e) (hs : s < e) (hbig : (10 : ℚ) ^ (p + 1) * 10 ^ s ≤ |x|)
    (hnear : |a - x| ≤ 10 ^ s) : a = x := by
  obtain ⟨m, t, hm, rfl⟩ := ha
  have hspos := ten_zpow_pos s
  have hmq : |(m : ℚ)| ≤ (10 : ℚ) ^ p := by exact_mod_cast hm
  rcases le_or_gt t s with hts | hts
  · -- a value in units this small is itself too small to lie near `x`
    exfalso
    have hsmall : |(m : ℚ) * (10 : ℚ) ^ t| ≤ 10 ^ p * 10 ^ s := by
      rw [abs_mul, abs_of_pos (ten_zpow_pos t)]
      exact mul_le_mul hmq (zpow_le_zpow_right₀ (by norm_num) hts) (ten_zpow_pos t).le
        (by positivity)
    have hdist : |x| ≤ |(m : ℚ) * (10 : ℚ) ^ t| + 10 ^ s := by
      have := abs_sub_abs_le_abs_sub x (m * (10 : ℚ) ^ t)
      rw [abs_sub_comm] at this
      linarith
    have hone : (1 : ℚ) ≤ 10 ^ p := one_le_pow₀ (by norm_num)
    rw [pow_succ] at hbig
    nlinarith
  · -- both are whole multiples of a unit greater than their distance
    set d : ℤ := m * 10 ^ (t - (s + 1)).toNat - c * 10 ^ (e - (s + 1)).toNat with hd
    have hdiff : (m : ℚ) * 10 ^ t - x = d * 10 ^ (s + 1) := by
      rw [hx, ten_zpow_of_le (Int.add_one_le_of_lt hts),
        ten_zpow_of_le (Int.add_one_le_of_lt hs), hd]
      push_cast
      ring
    rw [hdiff, abs_mul, abs_of_pos (ten_zpow_pos _), zpow_add_one₀ (by norm_num)] at hnear
    have hlt : |(d : ℚ)| < 1 := by nlinarith [abs_nonneg (d : ℚ)]
    have hzero : d = 0 := Int.abs_lt_one_iff.1 (by exact_mod_cast hlt)
    rw [hzero, Int.cast_zero, zero_mul] at hdiff
    exact sub_eq_zero.1 hdiff

/-- Two operands of one sign, both far below the last digit of the other operand, have the same
values that need no rounding above their sums. -/
theorem le_add_of_le_add_sticky {p : ℕ} {a x y z : ℚ} {s e c : ℤ} (ha : Representable p a)
    (hx : x = c * (10 : ℚ) ^ e) (hs : s < e) (hbig : (10 : ℚ) ^ (p + 1) * 10 ^ s ≤ |x|)
    (hy : |y| ≤ 10 ^ s) (hz : |z| ≤ 10 ^ s) (hsign : 0 < y ∧ 0 < z ∨ y < 0 ∧ z < 0)
    (hle : a ≤ x + y) : a ≤ x + z := by
  by_contra hgt
  have hne : a ≠ x := by
    rintro rfl
    rcases hsign with ⟨_, hz0⟩ | ⟨hy0, _⟩ <;> linarith
  refine hne (ha.eq_of_abs_sub_le hx hs hbig ?_)
  rw [abs_le] at hy hz ⊢
  constructor <;> linarith

/-- **An operand far below the last digit matters by its sign alone**: any other one of its
sign, also far below, gives the same rounded sum. -/
theorem Rounds.of_sticky {p : ℕ} (hp : 0 < p) {x y z r : ℚ} {s e c : ℤ} (h : Rounds p (x + z) r)
    (hhalf : 2 * |r - (x + z)| * 10 ^ (p - 1) ≤ |x + z|)
    (hx : x = c * (10 : ℚ) ^ e) (hs : s < e) (hbig : (10 : ℚ) ^ (p + 1) * 10 ^ s ≤ |x|)
    (hy : |y| ≤ 10 ^ s) (hz : |z| ≤ 10 ^ s) (hsign : 0 < y ∧ 0 < z ∨ y < 0 ∧ z < 0) :
    Rounds p (x + y) r where
  le_of_le a ha hle := h.le_of_le a ha (le_add_of_le_add_sticky ha hx hs hbig hy hz hsign hle)
  ge_of_ge a ha hle := by
    have hneg : -a ≤ -x + -z := by
      refine le_add_of_le_add_sticky (x := -x) (y := -y) (c := -c) ha.neg ?_ hs ?_ ?_ ?_ ?_ ?_
      · rw [hx]
        push_cast
        ring
      · rwa [abs_neg]
      · rwa [abs_neg]
      · rwa [abs_neg]
      · rcases hsign with ⟨hy0, hz0⟩ | ⟨hy0, hz0⟩
        · exact .inr ⟨by linarith, by linarith⟩
        · exact .inl ⟨by linarith, by linarith⟩
      · linarith
    exact h.ge_of_ge a ha (by linarith)
  close := by
    have hunit : (1 : ℚ) ≤ 10 ^ (p - 1) := one_le_pow₀ (by norm_num)
    have hlarge : 100 * (10 : ℚ) ^ (p - 1) * 10 ^ s ≤ |x| := by
      have hpow : (10 : ℚ) ^ (p + 1) = 100 * 10 ^ (p - 1) := by
        rw [pow_succ, ← pow_sub_one_mul hp.ne' (10 : ℚ)]
        ring
      rwa [hpow] at hbig
    have hspos := ten_zpow_pos s
    have hmove : |z - y| ≤ 2 * 10 ^ s := by
      rw [abs_le] at hy hz ⊢
      constructor <;> linarith
    have herror : |r - (x + y)| ≤ |r - (x + z)| + |z - y| := by
      have := abs_add_le (r - (x + z)) (z - y)
      rwa [sub_add_sub_comm, show r + z - (x + z + y) = r - (x + y) by ring] at this
    have hsum : |x + z| ≤ |x + y| + |z - y| := by
      have := abs_add_le (x + y) (z - y)
      rwa [show x + y + (z - y) = x + z by ring] at this
    have hlow : |x| ≤ |x + y| + |y| := by
      have := abs_sub (x + y) y
      rwa [add_sub_cancel_right] at this
    have hgrow : (10 : ℚ) ^ s ≤ 10 ^ (p - 1) * 10 ^ s := le_mul_of_one_le_left hspos.le hunit
    calc |r - (x + y)| * 10 ^ (p - 1)
        ≤ (|r - (x + z)| + |z - y|) * 10 ^ (p - 1) :=
          mul_le_mul_of_nonneg_right herror (by positivity)
      _ ≤ (|r - (x + z)| + 2 * 10 ^ s) * 10 ^ (p - 1) :=
          mul_le_mul_of_nonneg_right (by linarith) (by positivity)
      _ = |r - (x + z)| * 10 ^ (p - 1) + 2 * (10 ^ (p - 1) * 10 ^ s) := by ring
      _ ≤ |x + y| := by linarith

/-! ## Halves -/

/-- A half in units ten times as small. -/
theorem int_mul_ten_zpow_div_two (c e : ℤ) :
    (c : ℚ) * 10 ^ e / 2 = ((5 * c : ℤ) : ℚ) * 10 ^ (e - 1) := by
  rw [zpow_sub_one₀ (by norm_num)]
  push_cast
  ring

/-- The half of an odd number of units, when it does not fit into `p` digits itself, rounds to a
whole number of units next to it. -/
theorem Rounds.eq_int_mul_of_odd {p : ℕ} (hp : 0 < p) {j e : ℤ} {r : ℚ}
    (hc : |2 * j + 1| ≤ 10 ^ p) (hlong : 10 ^ p < |5 * (2 * j + 1)|)
    (h : Rounds p ((2 * j + 1 : ℤ) * (10 : ℚ) ^ e / 2) r) (hr : Representable p r) :
    ∃ k : ℤ, r = k * (10 : ℚ) ^ e ∧ j ≤ k ∧ k ≤ j + 1 := by
  have hpos := ten_zpow_pos e
  have hjp : |j| ≤ 10 ^ p ∧ |j + 1| ≤ 10 ^ p := by
    have hone : (1 : ℤ) ≤ 10 ^ p := one_le_pow₀ (by norm_num)
    rw [abs_le] at hc
    constructor <;> rw [abs_le] <;> constructor <;> linarith
  have hlow : (j : ℚ) * 10 ^ e ≤ r := by
    refine h.le_of_le _ (representable_int_mul hjp.1 e) ?_
    push_cast
    nlinarith
  have hhigh : r ≤ ((j + 1 : ℤ) : ℚ) * 10 ^ e := by
    refine h.ge_of_ge _ (representable_int_mul hjp.2 e) ?_
    push_cast
    nlinarith
  have hlarge : (10 : ℚ) ^ (p - 1) * 10 ^ e ≤ |r| := by
    refine h.le_abs_of_le ⟨10 ^ (p - 1), e, ?_, by push_cast; rfl⟩ ?_
    · rw [abs_of_nonneg (by positivity)]
      exact pow_le_pow_right₀ (by norm_num) (Nat.sub_le p 1)
    · have hcast : (10 : ℚ) ^ p ≤ |((5 * (2 * j + 1) : ℤ) : ℚ)| := by exact_mod_cast hlong.le
      rw [int_mul_ten_zpow_div_two, abs_mul, abs_of_pos (ten_zpow_pos (e - 1))]
      calc (10 : ℚ) ^ (p - 1) * 10 ^ e = 10 ^ p * 10 ^ (e - 1) := by
            rw [zpow_sub_one₀ (by norm_num), ← pow_sub_one_mul hp.ne' (10 : ℚ)]
            ring
        _ ≤ _ := mul_le_mul_of_nonneg_right hcast (ten_zpow_pos _).le
  obtain ⟨k, rfl⟩ := hr.exists_eq_int_mul hp hlarge
  refine ⟨k, rfl, ?_, ?_⟩
  · exact_mod_cast le_of_mul_le_mul_right hlow hpos
  · exact_mod_cast le_of_mul_le_mul_right hhigh hpos

/-- **The double of a rounded half needs no rounding.** -/
theorem Rounds.representable_double {p : ℕ} (hp : 0 < p) {c e : ℤ} {r : ℚ} (hc : |c| ≤ 10 ^ p)
    (h : Rounds p (c * (10 : ℚ) ^ e / 2) r) (hr : Representable p r) :
    Representable p (2 * r) := by
  rcases Int.even_or_odd' c with ⟨j, rfl | rfl⟩
  · -- an even coefficient is halved exactly
    have hhalf : ((2 * j : ℤ) : ℚ) * 10 ^ e / 2 = j * 10 ^ e := by
      push_cast
      ring
    rw [hhalf] at h
    have hj : |j| ≤ 10 ^ p := by
      rw [abs_mul, abs_two] at hc
      linarith [abs_nonneg j]
    rw [h.eq_of_representable (representable_int_mul hj e)]
    exact ⟨2 * j, e, hc, by push_cast; ring⟩
  · -- the half of an odd one is exact, or lies between two neighbours and rounds to one of them
    rcases le_or_gt |5 * (2 * j + 1)| (10 ^ p) with hfit | hlong
    · rw [int_mul_ten_zpow_div_two] at h
      rw [h.eq_of_representable (representable_int_mul hfit _), ← int_mul_ten_zpow_div_two]
      exact ⟨2 * j + 1, e, hc, by push_cast; ring⟩
    · obtain ⟨k, rfl, hk1, hk2⟩ := h.eq_int_mul_of_odd hp hc hlong hr
      refine ⟨2 * k, e, ?_, by push_cast; ring⟩
      have heven : (10 : ℤ) ^ p = 2 * (5 * 10 ^ (p - 1)) := by
        rw [← pow_sub_one_mul hp.ne' (10 : ℤ)]
        ring
      rw [abs_le] at hc ⊢
      omega

end MemoryLimit
