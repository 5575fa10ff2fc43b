import Mathlib
import MemoryLimit.Binary64.Basic
import MemoryLimit.Proofs.Decimal.Rounding

/-!
# Rounding to binary numbers

A quotient is rounded in the units of its last place, which are chosen so that it has 53 binary
digits in them. What is used of that is said of rationals: which numbers are kept, and from where on
a rounded quotient reaches a power of two. The end of the format is such a power, so a quotient is
too large from half a unit below it on, whatever digits it has.

## Main definitions

* `Binary64.Fits` — a mantissa and an exponent that the format has.
* `Binary64.nearest` — a quotient rounded to 53 binary digits, of any magnitude.
* `Binary64.overflowBound` — the least values that are too large.
* `Binary64.nearestNat` — the same for naturals, without the format.

## Main statements

* `Binary64.ofRatio_cases` — a quotient is rounded to a number of the format, or beyond them.
* `Binary64.two_zpow_le_nearest_iff` — where a rounded quotient reaches a power of two.
* `Binary64.ofDecimal_cases` — the same for decimals, however large or small.
* `Binary64.scale_cases` — scaling by a power of two does not round.
* `Binary64.nearestNat_eq_iff` — the naturals that are kept.
-/
namespace MemoryLimit.Binary64

/-! ## Powers of two -/

theorem two_zpow_pos (e : ℤ) : (0 : ℚ) < 2 ^ e :=
  zpow_pos (by norm_num) e

theorem two_zpow_mono {a b : ℤ} (h : a ≤ b) : (2 : ℚ) ^ a ≤ 2 ^ b :=
  zpow_le_zpow_right₀ (by norm_num) h

/-- A power of two as a quotient of naturals. -/
theorem two_zpow_eq (e : ℤ) : (2 : ℚ) ^ e = 2 ^ e.toNat / 2 ^ (-e).toNat := by
  rcases le_total 0 e with he | he
  · obtain ⟨k, rfl⟩ := Int.eq_ofNat_of_zero_le he
    simp
  · obtain ⟨k, hk⟩ := Int.eq_ofNat_of_zero_le (Int.neg_nonneg.2 he)
    obtain rfl : e = -k := by omega
    simp

/-- The place of the first binary digit of a quotient, up to one. -/
theorem two_zpow_log2_le {n d : ℕ} (hn : n ≠ 0) (hd : d ≠ 0) :
    (2 : ℚ) ^ ((n.log2 : ℤ) - d.log2 - 1) ≤ n / d ∧
      (n / d : ℚ) < 2 ^ ((n.log2 : ℤ) - d.log2 + 1) := by
  have hn0 : (2 : ℚ) ^ n.log2 ≤ n := by exact_mod_cast Nat.log2_self_le hn
  have hn1 : (n : ℚ) < 2 ^ (n.log2 + 1) := by exact_mod_cast Nat.lt_log2_self
  have hd0 : (2 : ℚ) ^ d.log2 ≤ d := by exact_mod_cast Nat.log2_self_le hd
  have hd1 : (d : ℚ) < 2 ^ (d.log2 + 1) := by exact_mod_cast Nat.lt_log2_self
  have hdpos : (0 : ℚ) < d := by exact_mod_cast Nat.pos_of_ne_zero hd
  constructor
  · rw [le_div_iff₀ hdpos]
    calc (2 : ℚ) ^ ((n.log2 : ℤ) - d.log2 - 1) * d
        ≤ 2 ^ ((n.log2 : ℤ) - d.log2 - 1) * 2 ^ (d.log2 + 1) :=
          mul_le_mul_of_nonneg_left hd1.le (two_zpow_pos _).le
      _ = 2 ^ n.log2 := by
          rw [← zpow_natCast, ← zpow_natCast, ← zpow_add₀ (by norm_num)]
          congr 1
          push_cast
          ring
      _ ≤ n := hn0
  · rw [div_lt_iff₀ hdpos]
    calc (n : ℚ) < 2 ^ (n.log2 + 1) := hn1
      _ = 2 ^ ((n.log2 : ℤ) - d.log2 + 1) * 2 ^ d.log2 := by
          rw [← zpow_natCast, ← zpow_natCast, ← zpow_add₀ (by norm_num)]
          congr 1
          push_cast
          ring
      _ ≤ 2 ^ ((n.log2 : ℤ) - d.log2 + 1) * d :=
          mul_le_mul_of_nonneg_left hd0 (two_zpow_pos _).le

/-! ## The last place -/

/-- Writing a quotient in units divides it by the unit. -/
theorem inUnits_div {n d : ℕ} (e : ℤ) :
    ((inUnits n d e).1 : ℚ) / (inUnits n d e).2 = n / d / 2 ^ e := by
  rw [two_zpow_eq e]
  simp only [inUnits]
  push_cast
  field_simp

theorem inUnits_den_pos {n d : ℕ} (hd : d ≠ 0) (e : ℤ) : 0 < (inUnits n d e).2 :=
  Nat.mul_pos (Nat.pos_of_ne_zero hd) (by positivity)

/-- **The last place of a rounded quotient**: in its units the quotient has 53 binary digits, or
fewer at the least place that there is. -/
theorem placeOf_spec {n d : ℕ} (hn : n ≠ 0) (hd : d ≠ 0) :
    minExponent ≤ placeOf n d ∧ (n / d : ℚ) < 2 ^ (placeOf n d + 53) ∧
      ((2 : ℚ) ^ (placeOf n d + 52) ≤ n / d ∨ placeOf n d = minExponent) := by
  obtain ⟨hlow, hhigh⟩ := two_zpow_log2_le hn hd
  -- the quotient has 53 or 54 digits before its last place is corrected
  set e : ℤ := (n.log2 : ℤ) - d.log2 - 53 with he
  have hden : (0 : ℚ) < (inUnits n d e).2 := by exact_mod_cast inUnits_den_pos hd e
  have htest : (inUnits n d e).2 * 2 ^ 53 ≤ (inUnits n d e).1 ↔ (2 : ℚ) ^ (e + 53) ≤ n / d := by
    rw [← Nat.cast_le (α := ℚ), Nat.cast_mul, mul_comm, ← le_div_iff₀ hden, inUnits_div,
      le_div_iff₀ (two_zpow_pos e), zpow_add₀ (by norm_num), mul_comm]
    norm_cast
  have hplace : placeOf n d = max minExponent (if (2 : ℚ) ^ (e + 53) ≤ n / d then e + 1 else e) := by
    rw [placeOf]
    simp only [← he, htest]
  have htop : (n / d : ℚ) < 2 ^ (e + 1 + 53) := by
    rwa [show (n.log2 : ℤ) - d.log2 + 1 = e + 1 + 53 by omega] at hhigh
  have hbottom : (2 : ℚ) ^ (e + 52) ≤ n / d := by
    rwa [show (n.log2 : ℤ) - d.log2 - 1 = e + 52 by omega] at hlow
  rw [hplace]
  split
  · rename_i hlarge
    refine ⟨le_max_left _ _, htop.trans_le (two_zpow_mono (by omega)), ?_⟩
    rcases le_total (e + 1) minExponent with hleast | hmost
    · exact .inr (max_eq_left hleast)
    · rw [max_eq_right hmost]
      exact .inl (by rwa [show e + 1 + 52 = e + 53 by ring])
  · rename_i hsmall
    refine ⟨le_max_left _ _, (not_le.1 hsmall).trans_le (two_zpow_mono (by omega)), ?_⟩
    rcases le_total e minExponent with hleast | hmost
    · exact .inr (max_eq_left hleast)
    · rw [max_eq_right hmost]
      exact .inl hbottom

/-- In units of its last place a quotient is less than `2 ^ 53`. -/
theorem inUnits_placeOf {n d : ℕ} (hn : n ≠ 0) (hd : d ≠ 0) :
    (inUnits n d (placeOf n d)).1 < 2 ^ 53 * (inUnits n d (placeOf n d)).2 ∧
      (2 ^ 52 * (inUnits n d (placeOf n d)).2 ≤ (inUnits n d (placeOf n d)).1 ∨
        placeOf n d = minExponent) := by
  obtain ⟨-, hhigh, hlow⟩ := placeOf_spec hn hd
  set e := placeOf n d
  have hden : (0 : ℚ) < (inUnits n d e).2 := by exact_mod_cast inUnits_den_pos hd e
  have hratio := inUnits_div (n := n) (d := d) e
  rw [zpow_add₀ (by norm_num)] at hhigh hlow
  constructor
  · rw [← Nat.cast_lt (α := ℚ), Nat.cast_mul, ← div_lt_iff₀ hden, hratio,
      div_lt_iff₀ (two_zpow_pos e), mul_comm]
    exact_mod_cast hhigh
  · refine hlow.imp_left fun hlow => ?_
    rw [← Nat.cast_le (α := ℚ), Nat.cast_mul, ← le_div_iff₀ hden, hratio,
      le_div_iff₀ (two_zpow_pos e), mul_comm]
    exact_mod_cast hlow

/-! ## Rounded quotients -/

/-- A quotient rounded to the places of the format, of any magnitude. -/
def nearest (n d : ℕ) : ℚ :=
  roundHalfEven (inUnits n d (placeOf n d)).1 (inUnits n d (placeOf n d)).2 * 2 ^ placeOf n d

theorem nearest_zero (d : ℕ) : nearest 0 d = 0 := by
  simp [nearest, inUnits, roundHalfEven]

/-- A mantissa and an exponent that the format has. -/
structure Fits (m : ℕ) (e : ℤ) : Prop where
  mantissa : m < 2 ^ 53
  least : minExponent ≤ e
  greatest : e ≤ maxExponent

theorem fits_zero : Fits 0 minExponent :=
  ⟨by norm_num, le_rfl, by decide⟩

/-- The numbers of the format end below `2 ^ 1024`. -/
theorem Fits.lt {m : ℕ} {e : ℤ} (h : Fits m e) : (m * 2 ^ e : ℚ) < 2 ^ (1024 : ℤ) := by
  have hm : (m : ℚ) < 2 ^ 53 := by exact_mod_cast h.mantissa
  calc (m * 2 ^ e : ℚ) < 2 ^ 53 * 2 ^ e := mul_lt_mul_of_pos_right hm (two_zpow_pos e)
    _ ≤ 2 ^ 53 * 2 ^ maxExponent :=
        mul_le_mul_of_nonneg_left (two_zpow_mono h.greatest) (by positivity)
    _ = 2 ^ (1024 : ℤ) := by
        rw [← zpow_natCast, ← zpow_add₀ (by norm_num)]
        rfl

/-- **A quotient is rounded** to a number of the format, or beyond all of them. -/
theorem ofRatio_cases (negative : Bool) (n : ℕ) {d : ℕ} (hd : d ≠ 0) :
    ofRatio negative n d = .infinity negative ∧ (2 : ℚ) ^ (1024 : ℤ) ≤ nearest n d ∨
      ∃ m e, ofRatio negative n d = .finite negative m e ∧ Fits m e ∧
        (m * 2 ^ e : ℚ) = nearest n d := by
  by_cases hn : n = 0
  · subst hn
    refine .inr ⟨0, minExponent, rfl, fits_zero, ?_⟩
    rw [nearest_zero, Nat.cast_zero, zero_mul]
  obtain ⟨hleast, -, -⟩ := placeOf_spec hn hd
  obtain ⟨hhigh, hlow⟩ := inUnits_placeOf hn hd
  have hden := inUnits_den_pos (n := n) hd (placeOf n d)
  have hmost := roundHalfEven_le_of_le hden hhigh.le
  have hnormal := hlow.imp_left fun hlow => le_roundHalfEven hden hlow
  have hnear : nearest n d = roundHalfEven (inUnits n d (placeOf n d)).1
      (inUnits n d (placeOf n d)).2 * 2 ^ placeOf n d := rfl
  rw [ofRatio, if_neg hn]
  generalize placeOf n d = e at *
  extract_lets place
  split
  rename_i num den hunits
  rw [show inUnits n d e = (num, den) from hunits] at hnear hmost hnormal
  extract_lets q
  change nearest n d = q * 2 ^ e at hnear
  change q ≤ 2 ^ 53 at hmost
  change 2 ^ 52 ≤ q ∨ e = minExponent at hnormal
  clear_value q
  split
  rename_i mantissa exponent hcut
  -- a carry to the next power of two moves the last place by one
  obtain ⟨hvalue, hlt, hplace, hwhole⟩ : (mantissa * 2 ^ exponent : ℚ) = q * 2 ^ e ∧
      mantissa < 2 ^ 53 ∧ minExponent ≤ exponent ∧
        (2 ^ 52 ≤ mantissa ∨ exponent = minExponent) := by
    split at hcut
    · rename_i hcarry
      obtain ⟨rfl, rfl⟩ := Prod.mk.inj hcut
      refine ⟨?_, by norm_num, by omega, .inl (by norm_num)⟩
      rw [hcarry, zpow_add_one₀ (by norm_num)]
      norm_num
      ring
    · rename_i hcarry
      obtain ⟨rfl, rfl⟩ := Prod.mk.inj hcut
      exact ⟨rfl, lt_of_le_of_ne hmost hcarry, hleast, hnormal⟩
  split
  · rename_i hover
    have hfull : 2 ^ 52 ≤ mantissa := by
      refine hwhole.resolve_right ?_
      rintro rfl
      exact absurd hover (by decide)
    refine .inl ⟨rfl, ?_⟩
    rw [hnear, ← hvalue]
    calc (2 : ℚ) ^ (1024 : ℤ) ≤ 2 ^ (52 + exponent) :=
          two_zpow_mono (by rw [maxExponent] at hover; omega)
      _ = 2 ^ 52 * 2 ^ exponent := by rw [zpow_add₀ (by norm_num)]; norm_cast
      _ ≤ mantissa * 2 ^ exponent :=
          mul_le_mul_of_nonneg_right (by exact_mod_cast hfull) (two_zpow_pos exponent).le
  · rename_i hfits
    exact .inr ⟨mantissa, exponent, rfl, ⟨hlt, hplace, not_lt.1 hfits⟩, hvalue.trans hnear.symm⟩

/-- **Where a rounded quotient reaches a power of two**: half a unit below it, in the units of the
numbers below. -/
theorem two_zpow_le_nearest_iff {n d : ℕ} (hd : d ≠ 0) {t : ℤ} (ht : minExponent + 54 ≤ t) :
    (2 : ℚ) ^ t ≤ nearest n d ↔ (2 : ℚ) ^ t - 2 ^ (t - 54) ≤ n / d := by
  by_cases hn : n = 0
  · subst hn
    have hless : (2 : ℚ) ^ (t - 54) < 2 ^ t := zpow_lt_zpow_right₀ (by norm_num) (by omega)
    have hpos := two_zpow_pos t
    rw [nearest_zero, Nat.cast_zero, zero_div]
    constructor <;> intro h <;> linarith
  obtain ⟨hleast, hhigh, hlow⟩ := placeOf_spec hn hd
  obtain ⟨hbelow, hfull⟩ := inUnits_placeOf hn hd
  have hden := inUnits_den_pos (n := n) hd (placeOf n d)
  have hratio := inUnits_div (n := n) (d := d) (placeOf n d)
  rw [nearest]
  generalize placeOf n d = e at *
  generalize (inUnits n d e).1 = num at *
  generalize (inUnits n d e).2 = den at *
  have hdenq : (0 : ℚ) < den := by exact_mod_cast hden
  rw [eq_div_iff (two_zpow_pos e).ne'] at hratio
  rw [← hratio] at hhigh hlow ⊢
  rcases lt_trichotomy e (t - 53) with hless | heq | hmore
  · -- both are at most half of the power of two
    have hpow : (2 : ℚ) ^ (e + 53) ≤ 2 ^ (t - 1) := two_zpow_mono (by omega)
    have hdouble : (2 : ℚ) ^ t = 2 * 2 ^ (t - 1) := by
      rw [zpow_sub_one₀ (by norm_num)]
      ring
    have hsmall : (2 : ℚ) ^ (t - 54) ≤ 2 ^ (t - 1) := two_zpow_mono (by omega)
    have hpos := two_zpow_pos (t - 1)
    have hq : (roundHalfEven num den : ℚ) * 2 ^ e ≤ 2 ^ (e + 53) := by
      rw [add_comm, zpow_add₀ (by norm_num)]
      exact mul_le_mul_of_nonneg_right
        (by exact_mod_cast roundHalfEven_le_of_le hden hbelow.le) (two_zpow_pos e).le
    constructor <;> intro h <;> linarith
  · -- the power of two is reached by rounding up to it
    obtain rfl : t = e + 53 := by omega
    have hodd := succ_le_roundHalfEven_iff (n := num) (k := 2 ^ 53 - 1) hden (by norm_num)
    have hscaled : (2 : ℚ) ^ (e + 53) = 2 ^ 53 * 2 ^ e := by
      rw [add_comm, zpow_add₀ (by norm_num)]
      norm_cast
    have hsmall : (2 : ℚ) ^ (e + 53 - 54) = 2 ^ e / 2 := by
      rw [show e + 53 - 54 = e - 1 by ring, zpow_sub_one₀ (by norm_num), div_eq_mul_inv]
    have hcast : (2 : ℚ) ^ 53 ≤ roundHalfEven num den ↔ 2 ^ 53 - 1 + 1 ≤ roundHalfEven num den := by
      norm_cast
    rw [hsmall, hscaled, mul_le_mul_iff_left₀ (two_zpow_pos e),
      show (2 : ℚ) ^ 53 * 2 ^ e - 2 ^ e / 2 = (2 ^ 53 - 1 / 2) * 2 ^ e by ring,
      mul_le_mul_iff_left₀ (two_zpow_pos e), le_div_iff₀ hdenq, hcast, hodd,
      ← Nat.cast_le (α := ℚ)]
    push_cast
    constructor <;> intro h <;> norm_num at h ⊢ <;> linarith
  · -- the place is normal, and both are at least the power of two
    have hnormal : e ≠ minExponent := by omega
    have hpow : (2 : ℚ) ^ t ≤ 2 ^ (e + 52) := two_zpow_mono (by omega)
    have hq : (2 : ℚ) ^ (e + 52) ≤ roundHalfEven num den * 2 ^ e := by
      rw [add_comm, zpow_add₀ (by norm_num)]
      exact mul_le_mul_of_nonneg_right
        (by exact_mod_cast le_roundHalfEven hden (hfull.resolve_right hnormal)) (two_zpow_pos e).le
    have hx := hlow.resolve_right hnormal
    have hpos := two_zpow_pos (t - 54)
    constructor <;> intro h <;> linarith

/-- **A value that the format has is kept.** -/
theorem nearest_eq {n d m : ℕ} {f : ℤ} (hd : d ≠ 0) (hm : m < 2 ^ 53) (hf : minExponent ≤ f)
    (h : (n / d : ℚ) = m * 2 ^ f) : nearest n d = m * 2 ^ f := by
  by_cases hn : n = 0
  · subst hn
    rw [nearest_zero, ← h, Nat.cast_zero, zero_div]
  obtain ⟨hleast, hhigh, hlow⟩ := placeOf_spec hn hd
  have hden := inUnits_den_pos (n := n) hd (placeOf n d)
  have hratio := inUnits_div (n := n) (d := d) (placeOf n d)
  rw [nearest]
  generalize placeOf n d = e at *
  have hle : e ≤ f := by
    rcases hlow with hnormal | rfl
    · by_contra hgt
      have hlt : (n / d : ℚ) < 2 ^ (53 + f) := by
        rw [h, zpow_add₀ (by norm_num)]
        exact mul_lt_mul_of_pos_right (by exact_mod_cast hm) (two_zpow_pos f)
      exact absurd (hlt.trans_le (two_zpow_mono (by omega))) (not_lt.2 hnormal)
    · exact hf
  obtain ⟨k, hk⟩ := Int.eq_ofNat_of_zero_le (sub_nonneg.2 hle)
  obtain rfl : f = e + k := by omega
  -- the value is whole in units of its last place
  have hnum : (inUnits n d e).1 = m * 2 ^ k * (inUnits n d e).2 := by
    have hdenq : ((inUnits n d e).2 : ℚ) ≠ 0 := by exact_mod_cast hden.ne'
    rw [h, zpow_add₀ (by norm_num), zpow_natCast, div_eq_iff hdenq] at hratio
    have hpos := (two_zpow_pos e).ne'
    rw [← Nat.cast_inj (R := ℚ), hratio]
    push_cast
    field_simp
  rw [hnum, roundHalfEven_mul hden, zpow_add₀ (by norm_num)]
  push_cast
  rw [zpow_natCast]
  ring

/-- **Scaling by a power of two is exact**, unless it leads beyond the format. -/
theorem scale_cases {m : ℕ} {e : ℤ} (negative : Bool) (h : Fits m e) (k : ℕ) :
    scale (.finite negative m e) k = .infinity negative ∧ (2 : ℚ) ^ (1024 : ℤ) ≤ m * 2 ^ e * 2 ^ k ∨
      ∃ n f, scale (.finite negative m e) k = .finite negative n f ∧ Fits n f ∧
        (n * 2 ^ f : ℚ) = m * 2 ^ e * 2 ^ k := by
  have hden : 2 ^ (-e).toNat ≠ 0 := by positivity
  have hratio : ((m * 2 ^ k * 2 ^ e.toNat : ℕ) : ℚ) / (2 ^ (-e).toNat : ℕ) = m * 2 ^ (e + k) := by
    rw [zpow_add₀ (by norm_num), two_zpow_eq e, zpow_natCast]
    push_cast
    ring
  have hnear := nearest_eq hden h.mantissa (h.least.trans (by omega)) hratio
  rw [zpow_add₀ (by norm_num), zpow_natCast, ← mul_assoc] at hnear
  rw [scale, ← hnear]
  exact ofRatio_cases negative _ hden

/-! ## Decimals -/

/-- The least values that are rounded beyond all numbers of the format. -/
def overflowBound : ℚ :=
  2 ^ (1024 : ℤ) - 2 ^ (970 : ℤ)

theorem two_pow_le_ten_pow : (2 : ℚ) ^ (1024 : ℤ) ≤ 10 ^ (310 : ℤ) := by
  have hsplit : (2 : ℚ) ^ (1024 : ℤ) = (2 ^ 128) ^ 8 := by
    rw [← pow_mul, ← zpow_natCast]
    norm_num
  have hten : (10 : ℚ) ^ (310 : ℤ) = 10 ^ 22 * (10 ^ 36) ^ 8 := by
    rw [← pow_mul, ← pow_add, ← zpow_natCast]
    norm_num
  calc (2 : ℚ) ^ (1024 : ℤ) = (2 ^ 128) ^ 8 := hsplit
    _ ≤ (341 * 10 ^ 36) ^ 8 := pow_le_pow_left₀ (by norm_num) (by norm_num) 8
    _ = 341 ^ 8 * (10 ^ 36) ^ 8 := mul_pow _ _ _
    _ ≤ 10 ^ 22 * (10 ^ 36) ^ 8 := mul_le_mul_of_nonneg_right (by norm_num) (by positivity)
    _ = 10 ^ (310 : ℤ) := hten.symm

/-- A decimal as a quotient of naturals. -/
theorem decimal_ratio (c : ℕ) (e : ℤ) :
    ((c * 10 ^ e.toNat : ℕ) : ℚ) / (10 ^ (-e).toNat : ℕ) = c * 10 ^ e := by
  rcases le_total 0 e with he | he
  · obtain ⟨k, rfl⟩ := Int.eq_ofNat_of_zero_le he
    simp
  · obtain ⟨k, hk⟩ := Int.eq_ofNat_of_zero_le (Int.neg_nonneg.2 he)
    obtain rfl : e = -k := by omega
    simp [div_eq_mul_inv]

/-- Decimals whose magnitude alone decides are far outside of the range of the format. -/
theorem ofDecimal_range (negative : Bool) (c : ℕ) (e : ℤ) :
    ofDecimal negative c e = .infinity negative ∧ (10 : ℚ) ^ (310 : ℤ) ≤ c * 10 ^ e ∨
      ofDecimal negative c e = .finite negative 0 minExponent ∧
        (c * 10 ^ e : ℚ) < 10 ^ (-310 : ℤ) ∨
      ofDecimal negative c e = ofRatio negative (c * 10 ^ e.toNat) (10 ^ (-e).toNat) := by
  have hmagnitude : ofDecimal negative c e =
      if c = 0 then zero negative
      else if 310 < e + Text.digitCount c then .infinity negative
      else if e + Text.digitCount c < -330 then zero negative
      else ofRatio negative (c * 10 ^ e.toNat) (10 ^ (-e).toNat) := rfl
  rw [hmagnitude]
  split
  · rename_i hc
    refine .inr (.inl ⟨rfl, ?_⟩)
    rw [hc, Nat.cast_zero, zero_mul]
    exact Number.ten_zpow_pos _
  rename_i hc
  let x : Number := ⟨false, c, e⟩
  have hvalue : |x.toRat| = c * 10 ^ e := x.abs_toRat
  split
  · refine .inl ⟨rfl, ?_⟩
    calc (10 : ℚ) ^ (310 : ℤ) ≤ 10 ^ x.adjusted :=
          zpow_le_zpow_right₀ (by norm_num) (by simp only [Number.adjusted, x]; omega)
      _ ≤ c * 10 ^ e := hvalue ▸ Number.ten_zpow_adjusted_le hc
  split
  · refine .inr (.inl ⟨rfl, ?_⟩)
    calc (c * 10 ^ e : ℚ) < 10 ^ (x.adjusted + 1) := hvalue ▸ x.abs_toRat_lt
      _ ≤ 10 ^ (-310 : ℤ) :=
          zpow_le_zpow_right₀ (by norm_num) (by simp only [Number.adjusted, x]; omega)
  · exact .inr (.inr rfl)

/-- **A decimal is rounded** to a number of the format, or beyond all of them; the number reaches a
power of two exactly if the decimal is at most half a unit below it. -/
theorem ofDecimal_cases (negative : Bool) (c : ℕ) (e : ℤ) :
    ofDecimal negative c e = .infinity negative ∧ overflowBound ≤ c * (10 : ℚ) ^ e ∨
      ∃ m f, ofDecimal negative c e = .finite negative m f ∧ Fits m f ∧
        ∀ t, minExponent + 54 ≤ t →
          ((2 : ℚ) ^ t ≤ m * 2 ^ f ↔ (2 : ℚ) ^ t - 2 ^ (t - 54) ≤ c * 10 ^ e) := by
  rcases ofDecimal_range negative c e with ⟨hlarge, hx⟩ | ⟨hsmall, hx⟩ | hratio
  · refine .inl ⟨hlarge, ?_⟩
    calc overflowBound ≤ 2 ^ (1024 : ℤ) := sub_le_self _ (two_zpow_pos 970).le
      _ ≤ 10 ^ (310 : ℤ) := two_pow_le_ten_pow
      _ ≤ c * 10 ^ e := hx
  · refine .inr ⟨0, minExponent, hsmall, fits_zero, fun t ht => ?_⟩
    have hbelow : (10 : ℚ) ^ (-310 : ℤ) ≤ 2 ^ (t - 1) := by
      calc (10 : ℚ) ^ (-310 : ℤ) ≤ 2 ^ (-1024 : ℤ) := by
            rw [zpow_neg, zpow_neg]
            exact inv_anti₀ (two_zpow_pos _) two_pow_le_ten_pow
        _ ≤ 2 ^ (t - 1) := two_zpow_mono (by rw [minExponent] at ht; omega)
    have hdouble : (2 : ℚ) ^ t = 2 * 2 ^ (t - 1) := by
      rw [zpow_sub_one₀ (by norm_num)]
      ring
    have hunit : (2 : ℚ) ^ (t - 54) ≤ 2 ^ (t - 1) := two_zpow_mono (by omega)
    have hpos := two_zpow_pos t
    rw [Nat.cast_zero, zero_mul]
    constructor <;> intro h <;> linarith
  · have hden : 10 ^ (-e).toNat ≠ 0 := by positivity
    have hreach : ∀ t, minExponent + 54 ≤ t → ((2 : ℚ) ^ t ≤
        nearest (c * 10 ^ e.toNat) (10 ^ (-e).toNat) ↔ (2 : ℚ) ^ t - 2 ^ (t - 54) ≤ c * 10 ^ e) := by
      intro t ht
      rw [two_zpow_le_nearest_iff hden ht, decimal_ratio]
    rw [hratio]
    rcases ofRatio_cases negative (c * 10 ^ e.toNat) hden with
      ⟨hover, hbeyond⟩ | ⟨m, f, hfinite, hfits, hnear⟩
    · exact .inl ⟨hover, (hreach 1024 (by decide)).1 hbeyond⟩
    · exact .inr ⟨m, f, hfinite, hfits, fun t ht => hnear ▸ hreach t ht⟩

/-! ## Naturals -/

/-- The natural of at most 53 binary digits that is nearest to a natural, from halfway between two of
them the one with an even last digit. -/
def nearestNat (n : ℕ) : ℕ :=
  roundHalfEven n (2 ^ (n.log2 - 52)) * 2 ^ (n.log2 - 52)

theorem placeOf_nat {n : ℕ} (hn : n ≠ 0) : placeOf n 1 = (n.log2 : ℤ) - 52 := by
  obtain ⟨-, hhigh, hlow⟩ := placeOf_spec hn one_ne_zero
  rw [Nat.cast_one, div_one] at hhigh hlow
  have hn0 : (2 : ℚ) ^ (n.log2 : ℤ) ≤ n := by exact_mod_cast Nat.log2_self_le hn
  have hn1 : (n : ℚ) < 2 ^ ((n.log2 : ℤ) + 1) := by exact_mod_cast Nat.lt_log2_self
  have habove : (n.log2 : ℤ) < placeOf n 1 + 53 :=
    (zpow_lt_zpow_iff_right₀ (by norm_num)).1 (hn0.trans_lt hhigh)
  have hnormal : (2 : ℚ) ^ (placeOf n 1 + 52) ≤ n := by
    refine hlow.resolve_right fun hleast => ?_
    rw [hleast, minExponent] at habove
    omega
  have hbelow : placeOf n 1 + 52 < (n.log2 : ℤ) + 1 :=
    (zpow_lt_zpow_iff_right₀ (by norm_num)).1 (hnormal.trans_lt hn1)
  omega

theorem nearest_nat (n : ℕ) : nearest n 1 = nearestNat n := by
  by_cases hn : n = 0
  · subst hn
    simp [nearest, nearestNat, inUnits, roundHalfEven]
  rw [nearest, placeOf_nat hn, nearestNat]
  rcases le_total 52 n.log2 with hlarge | hsmall
  · obtain ⟨s, hs⟩ := Nat.exists_eq_add_of_le hlarge
    have hplace : (n.log2 : ℤ) - 52 = (s : ℕ) := by omega
    rw [hplace, show n.log2 - 52 = s by omega, zpow_natCast]
    simp [inUnits]
  · obtain ⟨j, hj⟩ := Nat.exists_eq_add_of_le hsmall
    have hplace : (n.log2 : ℤ) - 52 = -(j : ℕ) := by omega
    have hwhole : ∀ k : ℕ, roundHalfEven k 1 = k := fun k => by
      simpa using roundHalfEven_mul (k := k) one_pos
    rw [hplace, show n.log2 - 52 = 0 by omega, zpow_neg, zpow_natCast]
    simp [inUnits, hwhole]

/-- **A natural is kept** exactly if 53 binary digits suffice for it. -/
theorem nearestNat_eq_iff (n : ℕ) : nearestNat n = n ↔ ∃ m f, m < 2 ^ 53 ∧ n = m * 2 ^ f := by
  constructor
  · intro h
    refine ⟨roundHalfEven n (2 ^ (n.log2 - 52)), n.log2 - 52, ?_, h.symm⟩
    refine Nat.lt_of_mul_lt_mul_right (a := 2 ^ (n.log2 - 52)) ?_
    calc roundHalfEven n (2 ^ (n.log2 - 52)) * 2 ^ (n.log2 - 52) = n := h
      _ < 2 ^ (n.log2 + 1) := Nat.lt_log2_self
      _ ≤ 2 ^ (53 + (n.log2 - 52)) := Nat.pow_le_pow_right (by norm_num) (by omega)
      _ = 2 ^ 53 * 2 ^ (n.log2 - 52) := pow_add _ _ _
  · rintro ⟨m, f, hm, hn⟩
    have hratio : ((n : ℕ) : ℚ) / (1 : ℕ) = m * 2 ^ (f : ℤ) := by
      rw [hn, Nat.cast_one, div_one, zpow_natCast]
      push_cast
      rfl
    have hleast : minExponent ≤ f := (by decide : minExponent ≤ 0).trans (Int.natCast_nonneg f)
    have hnear := nearest_eq one_ne_zero hm hleast hratio
    rw [← hratio, nearest_nat, Nat.cast_one, div_one] at hnear
    exact_mod_cast hnear

/-- A natural in decimal is rounded to the nearest natural of 53 binary digits, unless that is beyond
the format. -/
theorem ofDecimal_nat (n : ℕ) :
    ofDecimal false n 0 = .infinity false ∧ (2 : ℚ) ^ (1024 : ℤ) ≤ nearestNat n ∨
      ∃ m e, ofDecimal false n 0 = .finite false m e ∧ Fits m e ∧
        (m * 2 ^ e : ℚ) = nearestNat n := by
  rw [← nearest_nat]
  rcases ofDecimal_range false n 0 with ⟨hlarge, hx⟩ | ⟨hsmall, hx⟩ | hratio
  · refine .inl ⟨hlarge, (two_zpow_le_nearest_iff one_ne_zero (by decide)).2 ?_⟩
    calc (2 : ℚ) ^ (1024 : ℤ) - 2 ^ ((1024 : ℤ) - 54) ≤ 2 ^ (1024 : ℤ) :=
          sub_le_self _ (two_zpow_pos _).le
      _ ≤ 10 ^ (310 : ℤ) := two_pow_le_ten_pow
      _ ≤ n / (1 : ℕ) := by simpa using hx
  · have hzero : n = 0 := by
      have hone : (10 : ℚ) ^ (-310 : ℤ) ≤ 1 := zpow_le_one_of_nonpos₀ (by norm_num) (by norm_num)
      rw [zpow_zero, mul_one] at hx
      exact_mod_cast Nat.lt_one_iff.1 (by exact_mod_cast hx.trans_le hone)
    subst hzero
    refine .inr ⟨0, minExponent, hsmall, fits_zero, ?_⟩
    rw [nearest_zero, Nat.cast_zero, zero_mul]
  · rw [hratio]
    simpa using ofRatio_cases false n one_ne_zero

end MemoryLimit.Binary64
