import Mathlib
import MemoryLimit.CommandLine.Request
import MemoryLimit.Proofs.Binary64.Rounding
import MemoryLimit.Proofs.Size.Spelling

/-!
# What a memory size is read as

A size goes through a floating point number: its number is rounded, scaled by its unit and cut to
whole bytes. Scaling by a unit does not round, so a natural number of units is read exactly if 53
binary digits suffice for it, and otherwise as the nearest natural for which they do. A size that is
too large for the format, or has the Kelvin sign for its unit, is no text that is refused but a
failure of its own.

## Main definitions

* `SizeSpelling.value` — the number of bytes that a spelling means.

## Main statements

* `readSizeAs_cases` — every spelling is read, or has the Kelvin sign, or is too large.
* `readSize_of_natural` — how a natural number of units is read, and when exactly.
* `sizeValue_read_or_refused_iff` — the sizes on a command line that are read or refused.
-/
namespace MemoryLimit

open Text Binary64

/-! ## Whole bytes -/

/-- The whole bytes of a finite number are the integer part of its value. -/
theorem wholeBytes_finite (m : ℕ) (e : ℤ) :
    wholeBytes (.finite false m e) = .ok ⌊(m * 2 ^ e : ℚ)⌋₊ := by
  have hvalue : ((m * 2 ^ e.toNat : ℕ) : ℚ) / (2 ^ (-e).toNat : ℕ) = m * 2 ^ e := by
    rw [two_zpow_eq e]
    push_cast
    ring
  rw [← hvalue, Nat.floor_div_eq_div]
  rfl

/-- The whole bytes of a number that was scaled. There are none beyond the format. -/
theorem wholeBytes_scale {m : ℕ} {e : ℤ} (h : Fits m e) (k : ℕ) :
    wholeBytes (scale (.finite false m e) k) =
      if (m * 2 ^ e * 2 ^ k : ℚ) < 2 ^ (1024 : ℤ) then .ok ⌊(m * 2 ^ e * 2 ^ k : ℚ)⌋₊
      else .error .infinite := by
  rcases scale_cases false h k with ⟨hscale, hover⟩ | ⟨n, f, hscale, hfits, hvalue⟩
  · rw [hscale, if_neg (not_lt.2 hover)]
    rfl
  · rw [hscale, ← hvalue, if_pos hfits.lt, wholeBytes_finite]

namespace SizeSpelling

variable (t : SizeSpelling)

/-- The number of bytes that a spelling means; the Kelvin sign is taken for no unit. -/
def value : ℚ :=
  t.fraction.coefficient * 10 ^ t.fraction.exponent * 1024 ^ t.power

/-- The number of a spelling, as a floating point number. -/
def rounded : Binary64 :=
  ofDecimal false t.fraction.coefficient t.fraction.exponent

end SizeSpelling

/-- How the unit of a spelling takes part in reading it. -/
theorem readSizeAs_text (t : SizeSpelling) (shown : String) :
    readSizeAs t.text shown =
      match t.unit with
      | none => wholeBytes t.rounded
      | some letter =>
        if letter = kelvinSign then .error (.unknownUnit kelvinSign)
        else wholeBytes (t.rounded.scale (10 * t.power)) := by
  rw [readSizeAs, sizeParts?_text]
  cases hunit : t.unit with
  | none => rfl
  | some letter =>
    have hletter := t.unit_letter letter hunit
    by_cases hkelvin : letter = kelvinSign
    · subst hkelvin
      rfl
    · simp only [isUnitLetter, hkelvin, decide_false, Bool.or_false] at hletter
      obtain ⟨power, hpower⟩ := Option.isSome_iff_exists.1 hletter
      have htimes : t.power = power := by
        rw [SizeSpelling.power, hunit, Option.bind_some, hpower, Option.getD_some]
      simp only [hpower, if_neg hkelvin, htimes]
      rfl

/-- A unit is a power of two. -/
theorem thousand_pow (p : ℕ) : (1024 : ℚ) ^ p = 2 ^ (10 * p) := by
  rw [pow_mul]
  norm_num

theorem SizeSpelling.power_le (t : SizeSpelling) : t.power ≤ 4 := by
  rw [SizeSpelling.power]
  cases t.unit with
  | none => exact Nat.zero_le 4
  | some letter =>
    rw [Option.bind_some]
    fun_cases unitPower? letter <;> simp

theorem SizeSpelling.power_of_unit_none {t : SizeSpelling} (h : t.unit = none) : t.power = 0 := by
  rw [SizeSpelling.power, h]
  rfl

/-- A spelling with a unit that stands for a power is read by rounding its number and scaling it. -/
theorem readSizeAs_of_finite {t : SizeSpelling} (hunit : t.unit ≠ some kelvinSign) (shown : String)
    {m : ℕ} {e : ℤ} (hfinite : t.rounded = .finite false m e) (hfits : Fits m e) :
    readSizeAs t.text shown =
      if (m * 2 ^ e * 1024 ^ t.power : ℚ) < 2 ^ (1024 : ℤ) then
        .ok ⌊(m * 2 ^ e * 1024 ^ t.power : ℚ)⌋₊
      else .error .infinite := by
  rw [readSizeAs_text, hfinite]
  cases hletter : t.unit with
  | none =>
    rw [t.power_of_unit_none hletter, pow_zero, mul_one, if_pos hfits.lt]
    exact wholeBytes_finite m e
  | some letter =>
    have hkelvin : letter ≠ kelvinSign := fun h => hunit (by rw [hletter, h])
    rw [thousand_pow]
    simp only [if_neg hkelvin]
    exact wholeBytes_scale hfits (10 * t.power)

theorem readSizeAs_of_infinite {t : SizeSpelling} (hunit : t.unit ≠ some kelvinSign) (shown : String)
    (hinfinite : t.rounded = .infinity false) :
    readSizeAs t.text shown = .error .infinite := by
  rw [readSizeAs_text, hinfinite]
  cases hletter : t.unit with
  | none => rfl
  | some letter =>
    have hkelvin : letter ≠ kelvinSign := fun h => hunit (by rw [hletter, h])
    simp only [if_neg hkelvin]
    rfl

/-- Scaling reaches the end of the format exactly if the value that is meant does. -/
theorem overflowBound_le_value_iff {t : SizeSpelling} {m : ℕ} {e : ℤ}
    (hreach : ∀ k, minExponent + 54 ≤ k → ((2 : ℚ) ^ k ≤ m * 2 ^ e ↔
      (2 : ℚ) ^ k - 2 ^ (k - 54) ≤ t.fraction.coefficient * 10 ^ t.fraction.exponent)) :
    (2 : ℚ) ^ (1024 : ℤ) ≤ m * 2 ^ e * 1024 ^ t.power ↔ overflowBound ≤ t.value := by
  have hpower := t.power_le
  have hpos : (0 : ℚ) < 2 ^ (10 * t.power) := by positivity
  have hshift : ∀ a : ℤ, (2 : ℚ) ^ a / 2 ^ (10 * t.power) = 2 ^ (a - 10 * t.power) := by
    intro a
    rw [zpow_sub₀ (by norm_num), ← zpow_natCast]
    push_cast
    rfl
  rw [thousand_pow, ← div_le_iff₀ hpos, hshift, hreach _ (by rw [minExponent]; omega),
    SizeSpelling.value, thousand_pow, ← div_le_iff₀ hpos, overflowBound, sub_div, hshift, hshift,
    show (1024 : ℤ) - 10 * t.power - 54 = 970 - 10 * t.power by ring]

/-- **Every spelling is read**, unless it has the Kelvin sign or means too many bytes. -/
theorem readSizeAs_cases (t : SizeSpelling) (shown : String) :
    t.unit = some kelvinSign ∧ readSizeAs t.text shown = .error (.unknownUnit kelvinSign) ∨
      t.unit ≠ some kelvinSign ∧ overflowBound ≤ t.value ∧
        readSizeAs t.text shown = .error .infinite ∨
      t.unit ≠ some kelvinSign ∧ t.value < overflowBound ∧
        ∃ n, readSizeAs t.text shown = .ok n := by
  by_cases hkelvin : t.unit = some kelvinSign
  · refine .inl ⟨hkelvin, ?_⟩
    rw [readSizeAs_text, hkelvin]
    rfl
  right
  rcases ofDecimal_cases false t.fraction.coefficient t.fraction.exponent with
    ⟨hinfinite, hover⟩ | ⟨m, e, hfinite, hfits, hreach⟩
  · refine .inl ⟨hkelvin, ?_, readSizeAs_of_infinite hkelvin shown hinfinite⟩
    have hone : (1 : ℚ) ≤ 1024 ^ t.power := one_le_pow₀ (by norm_num)
    have hnonneg : (0 : ℚ) ≤ t.fraction.coefficient * 10 ^ t.fraction.exponent :=
      mul_nonneg (Nat.cast_nonneg _) (Number.ten_zpow_pos _).le
    exact hover.trans (le_mul_of_one_le_right hnonneg hone)
  · have hread := readSizeAs_of_finite hkelvin shown hfinite hfits
    have hvalue := overflowBound_le_value_iff hreach
    by_cases hlarge : overflowBound ≤ t.value
    · rw [if_neg (not_lt.2 (hvalue.2 hlarge))] at hread
      exact .inl ⟨hkelvin, hlarge, hread⟩
    · rw [if_pos (not_le.1 fun h => hlarge (hvalue.1 h))] at hread
      exact .inr ⟨hkelvin, not_le.1 hlarge, _, hread⟩

/-! ## Natural numbers of units -/

namespace SizeSpelling

/-- The number that the digits before the point denote. -/
def natural (t : SizeSpelling) : ℕ :=
  digitsValue (scriptValues t.whole)

theorem rounded_of_natural {t : SizeSpelling} (h : t.places = []) :
    t.rounded = ofDecimal false t.natural 0 := by
  simp [rounded, fraction, fractionOf, natural, h]

end SizeSpelling

/-- **A natural number of units is read** as the nearest natural that 53 binary digits suffice for,
times its unit. So it is read as what it says exactly if they suffice for it. -/
theorem readSize_of_natural (t : SizeSpelling) (hwhole : t.places = [])
    (hunit : t.unit ≠ some kelvinSign) :
    readSize t.text =
        (if nearestNat t.natural * 1024 ^ t.power < 2 ^ 1024 then
          .ok (nearestNat t.natural * 1024 ^ t.power)
        else .error .infinite) ∧
      (readSize t.text = .ok (t.natural * 1024 ^ t.power) ↔
        t.natural * 1024 ^ t.power < 2 ^ 1024 ∧ ∃ m f, m < 2 ^ 53 ∧ t.natural = m * 2 ^ f) := by
  have hread : readSize t.text =
      if nearestNat t.natural * 1024 ^ t.power < 2 ^ 1024 then
        .ok (nearestNat t.natural * 1024 ^ t.power)
      else .error .infinite := by
    have hcast : ∀ n : ℕ, (n : ℚ) < 2 ^ (1024 : ℤ) ↔ n < 2 ^ 1024 := by
      intro n
      rw [zpow_ofNat, ← Nat.cast_lt (α := ℚ), Nat.cast_pow, Nat.cast_ofNat]
    rw [readSize]
    rcases ofDecimal_nat t.natural with ⟨hinfinite, hover⟩ | ⟨m, e, hfinite, hfits, hvalue⟩
    · have hone : 1 ≤ 1024 ^ t.power := Nat.one_le_pow _ _ (by norm_num)
      have hlarge : ¬ nearestNat t.natural < 2 ^ 1024 := fun h =>
        absurd ((hcast _).2 h) (not_lt.2 hover)
      rw [if_neg fun h => hlarge ((Nat.le_mul_of_pos_right _ hone).trans_lt h)]
      exact readSizeAs_of_infinite hunit _ (t.rounded_of_natural hwhole ▸ hinfinite)
    · rw [readSizeAs_of_finite hunit _ (t.rounded_of_natural hwhole ▸ hfinite) hfits, hvalue]
      have hnat : (nearestNat t.natural * 1024 ^ t.power : ℚ) =
          (nearestNat t.natural * 1024 ^ t.power : ℕ) := by push_cast; rfl
      rw [hnat, Nat.floor_natCast]
      simp only [hcast]
  refine ⟨hread, ?_⟩
  have hpos : 0 < 1024 ^ t.power := Nat.pow_pos (by norm_num)
  rw [hread, ← nearestNat_eq_iff]
  constructor
  · intro h
    split at h
    · rename_i hless
      have hsame := Nat.eq_of_mul_eq_mul_right hpos (Except.ok.inj h)
      rw [hsame] at hless
      exact ⟨hless, hsame⟩
    · cases h
  · intro h
    obtain ⟨hless, hsame⟩ := h
    rw [hsame, if_pos hless]

/-- Three kibibytes, with blanks at every place for them. -/
def SizeSpelling.threeKibibytes : SizeSpelling where
  lead := [' ']
  whole := ['3']
  places := []
  gap := [' ']
  unit := some 'K'
  binary := some 'i'
  byte := some 'B'
  trail := ['\n']
  lead_blank := by simp [isBlank]
  whole_ne_nil := by decide
  whole_digits := by simp [isDecimalDigit, digitValue?]
  places_digits := by simp
  gap_blank := by simp [isBlank]
  unit_letter := by simp [isUnitLetter, unitPower?]
  binary_mark := by simp [isBinaryMark]
  byte_mark := by simp [isByteMark]
  trail_blank := by simp [isBlank]

theorem readSize_of_natural_kibibytes : readSize " 3 KiB\n" = .ok 3072 := by
  have htext : SizeSpelling.threeKibibytes.text = " 3 KiB\n" := by decide
  have hbytes : SizeSpelling.threeKibibytes.natural * 1024 ^ SizeSpelling.threeKibibytes.power =
      3072 := by decide
  have hless : ∀ k, 12 ≤ k → 3072 < 2 ^ k := fun k hk =>
    calc 3072 < 2 ^ 12 := by norm_num
      _ ≤ 2 ^ k := Nat.pow_le_pow_right two_pos hk
  have hread := (readSize_of_natural .threeKibibytes rfl (by decide)).2.2
    ⟨hbytes ▸ hless 1024 (by norm_num), 3, 0, by norm_num, by decide⟩
  rwa [htext, hbytes] at hread

/-- The first natural with 54 binary digits that is not even is read as the one below it. -/
theorem readSize_beyond_53_digits :
    readSize "9007199254740993" = .ok 9007199254740992 ∧
      readSize "9007199254740993" ≠ .ok 9007199254740993 := by
  have hread : readSize "9007199254740993" = .ok 9007199254740992 := by decide +kernel
  exact ⟨hread, by rw [hread]; decide⟩

/-! ## Sizes on a command line -/

/-- **A size on a command line is read or refused** exactly if no spelling of it has the Kelvin sign or
means too many bytes. It fails in one of two other ways then. -/
theorem sizeValue_read_or_refused_iff (s : String) :
    (((∃ n : ℕ, sizeValue s = .ok n) ∨
        ∃ message, sizeValue s = .error (.complaint (.refused message))) ↔
      ∀ t : SizeSpelling, t.text = s → t.unit ≠ some kelvinSign ∧ t.value < overflowBound) ∧
    ∀ failure, sizeValue s = .error (.failure failure) →
      failure = .size (.unknownUnit kelvinSign) ∨ failure = .size .infinite := by
  by_cases hsize : ∃ t : SizeSpelling, t.text = s
  · obtain ⟨t, rfl⟩ := hsize
    -- all spellings of a text have the same number and unit
    have hsame : ∀ t' : SizeSpelling, t'.text = t.text → t'.unit = t.unit ∧ t'.value = t.value := by
      intro t' htext
      have hparts := sizeParts?_text t'
      rw [htext, sizeParts?_text, Option.some.injEq, Prod.mk.injEq] at hparts
      obtain ⟨hfraction, hunit⟩ := hparts
      refine ⟨hunit.symm, ?_⟩
      rw [SizeSpelling.value, SizeSpelling.value, SizeSpelling.power, SizeSpelling.power, hfraction,
        hunit]
    have hall : (∀ t' : SizeSpelling, t'.text = t.text →
        t'.unit ≠ some kelvinSign ∧ t'.value < overflowBound) ↔
        t.unit ≠ some kelvinSign ∧ t.value < overflowBound := by
      constructor
      · intro h
        exact h t rfl
      · intro h t' htext
        rwa [(hsame t' htext).1, (hsame t' htext).2]
    rw [hall, sizeValue, readSize]
    rcases readSizeAs_cases t (quoted t.text) with
      ⟨hkelvin, hread⟩ | ⟨hunit, hlarge, hread⟩ | ⟨hunit, hless, n, hread⟩
    · simp [hread, hkelvin]
    · simp [hread, not_lt.2 hlarge]
    · simp [hread, hunit, hless]
  · have hparts : sizeParts? s.toList = none := by
      by_contra hparts
      obtain ⟨⟨fraction, unit⟩, hparts⟩ := Option.ne_none_iff_exists'.1 hparts
      obtain ⟨t, htext, -⟩ := sizeParts?_eq_some_iff.1 hparts
      exact hsize ⟨t, htext⟩
    have hread : sizeValue s =
        .error (.complaint (.refused (SizeError.malformed (quoted s)).message)) := by
      rw [sizeValue, readSize, readSizeAs, hparts]
    rw [hread]
    refine ⟨⟨?_, ?_⟩, by simp⟩
    · intro h t htext
      exact absurd ⟨t, htext⟩ hsize
    · intro h
      exact .inr ⟨_, rfl⟩

/-- The Kelvin sign is taken for a unit and is none. -/
theorem sizeValue_kelvin :
    ¬ ((∃ n : ℕ, sizeValue "5\u212a" = .ok n) ∨
      ∃ complaint, sizeValue "5\u212a" = .error (.complaint complaint)) := by
  have hread : readSize "5\u212a" = .error (.unknownUnit kelvinSign) := by decide +kernel
  rw [sizeValue, hread]
  simp

end MemoryLimit
