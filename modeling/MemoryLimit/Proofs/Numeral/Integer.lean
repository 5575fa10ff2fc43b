import Mathlib
import MemoryLimit.Proofs.Text.Digits

/-!
# Integers are read as they are written

## Main statements

* `readInteger_integerText` — the numeral of an integer is read as that integer, if it is not
  too long.
* `printable_of_mem_integerText` — numerals have no blanks in them.
* `digitCount_of_readInteger` — an integer that is read can be written.
-/
namespace MemoryLimit

open Text

/-- The characters of a numeral. -/
theorem toList_integerText (i : ℤ) :
    (integerText i).toList = (if i < 0 then ['-'] else []) ++ natDigits i.natAbs := by
  rw [integerText]
  split <;> simp

theorem printable_of_mem_integerText {i : ℤ} {c : Char} (h : c ∈ (integerText i).toList) :
    Printable c := by
  rw [toList_integerText, List.mem_append] at h
  rcases h with hsign | hdigit
  · split at hsign
    · rw [List.mem_singleton.1 hsign]
      exact ⟨by decide, by decide, by decide⟩
    · cases hsign
  · exact printable_of_isDigit (isDigit_of_mem_natDigits hdigit)

theorem integerText_ne_nil (i : ℤ) : (integerText i).toList ≠ [] := by
  rw [toList_integerText]
  simp [natDigits_ne_nil]

/-- The numeral of an integer is its sign and its digits. -/
theorem splitSign_integerText (i : ℤ) :
    splitSign (integerText i).toList = (decide (i < 0), natDigits i.natAbs) := by
  rw [toList_integerText]
  split <;> rename_i h
  · simp [splitSign, h]
  · -- the first digit is no sign
    cases hdigits : natDigits i.natAbs with
    | nil => exact absurd hdigits (natDigits_ne_nil _)
    | cons c rest =>
      have hc : c.isDigit = true := isDigit_of_mem_natDigits (n := i.natAbs) (by simp [hdigits])
      have hminus : c ≠ '-' := by rintro rfl; cases hc
      have hplus : c ≠ '+' := by rintro rfl; cases hc
      simp [splitSign, h, hminus, hplus]

/-- The numeral of an integer is read as that integer, or is too long to be read. -/
theorem readInteger_integerText_eq (i : ℤ) :
    readInteger (integerText i) =
      if maxNumeralDigits < digitCount i.natAbs then .error (.tooLongToRead (digitCount i.natAbs))
      else .ok i := by
  have hplain : (integerText i).toList.map plainCharacter = (integerText i).toList :=
    map_plainCharacter fun _ => printable_of_mem_integerText
  have htrim : trimLeft isAsciiBlank (integerText i).toList = (integerText i).toList := by
    cases hchars : (integerText i).toList with
    | nil => rfl
    | cons c rest =>
      have hc : Printable c := printable_of_mem_integerText (i := i) (by simp [hchars])
      rw [trimLeft, List.dropWhile_cons_of_neg (by simp [hc.isAsciiBlank])]
  have hsigned : signed (decide (i < 0)) i.natAbs = i := by
    by_cases hi : i < 0 <;> simp only [signed, hi, decide_true, decide_false, if_true, if_false,
      Bool.false_eq_true] <;> omega
  rw [readInteger]
  simp only [hplain, htrim, splitSign_integerText]
  rw [takeGroupedDigits_digits (fun _ => isDigit_of_mem_natDigits) (.inr (natDigits_ne_nil _))]
  simp only [List.length_map, digitsValue_natDigits, hsigned]
  rfl

/-- **An integer is read as it is written**, unless its numeral is too long. -/
theorem readInteger_integerText {i : ℤ} (h : digitCount i.natAbs ≤ maxNumeralDigits) :
    readInteger (integerText i) = .ok i := by
  rw [readInteger_integerText_eq, if_neg (not_lt.2 h)]

/-! ## The integers that are read -/

/-- **An integer that is read is not too long to be written.** -/
theorem digitCount_of_readInteger {text : String} {i : ℤ} (h : readInteger text = .ok i) :
    digitCount i.natAbs ≤ maxNumeralDigits := by
  rw [readInteger] at h
  dsimp only at h
  split at h
  · cases h
  · rename_i digits after htake
    split at h
    · cases h
    · rename_i hlength
      split at h
      · cases h
        have hvalue : (signed (splitSign (trimLeft isAsciiBlank (text.toList.map
            plainCharacter))).1 (digitsValue digits)).natAbs = digitsValue digits := by
          rw [signed]
          split <;> simp
        have hlt := digitsValue_lt (lt_ten_of_takeGroupedDigits htake)
        rw [hvalue, digitCount_le_iff (by decide)]
        exact hlt.trans_le (Nat.pow_le_pow_right (by decide) (not_lt.1 hlength))
      · cases h

end MemoryLimit
