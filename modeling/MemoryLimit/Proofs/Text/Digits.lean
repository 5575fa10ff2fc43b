import Mathlib
import MemoryLimit.Numeral.Floating

/-!
# Digits

How many digits a number has, what its digits are, and that it is the value of them. Digits and the
other characters of a numeral are printable, so they are neither blank nor changed when a numeral is
read.

## Main definitions

* `Text.Printable` — a printable ASCII character that is not an underscore.

## Main statements

* `Text.digitsValue_natDigits` — a number is the value of its digits.
* `Text.takeDigits_append`, `Text.takeGroupedDigits_digits` — a run of digits is taken as a whole.
-/
namespace MemoryLimit.Text

/-! ## Counting digits -/

theorem digitCount_pos (n : ℕ) : 0 < digitCount n :=
  Nat.length_toDigits_pos

/-- A number has at most `k` digits when it is below `10 ^ k`. -/
theorem digitCount_le_iff {n k : ℕ} (hk : 0 < k) : digitCount n ≤ k ↔ n < 10 ^ k :=
  Nat.length_toDigits_le_iff (by norm_num) hk

theorem lt_ten_pow_digitCount (n : ℕ) : n < 10 ^ digitCount n :=
  (digitCount_le_iff (digitCount_pos n)).1 le_rfl

theorem ten_pow_le_of_ne_zero {n : ℕ} (hn : n ≠ 0) : 10 ^ (digitCount n - 1) ≤ n := by
  rcases Nat.eq_zero_or_pos (digitCount n - 1) with h | h
  · rw [h, pow_zero]
    exact Nat.one_le_iff_ne_zero.2 hn
  · by_contra hlt
    have := (digitCount_le_iff h).2 (not_le.1 hlt)
    omega

/-! ## The digits of a number -/

theorem natDigits_ne_nil (n : ℕ) : natDigits n ≠ [] :=
  Nat.toDigits_ne_nil

theorem isDigit_of_mem_natDigits {n : ℕ} {c : Char} (h : c ∈ natDigits n) : c.isDigit = true :=
  Nat.isDigit_of_mem_toDigits (by norm_num) le_rfl h

/-- The value of digits that are given as characters. -/
theorem digitsValue_map (s : List Char) :
    digitsValue (s.map (·.toNat - 48)) = Nat.ofDigitChars 10 s 0 := by
  rw [digitsValue, List.foldl_map, Nat.ofDigitChars_eq_foldl]
  rfl

/-- **A number is the value of its digits.** -/
theorem digitsValue_natDigits (n : ℕ) : digitsValue ((natDigits n).map (·.toNat - 48)) = n := by
  rw [digitsValue_map]
  exact Nat.ofDigitChars_ten_toDigits

/-- Zeros in front of digits change nothing. -/
theorem digitsValue_zeros_append (k : ℕ) (s : List Char) :
    digitsValue ((List.replicate k '0' ++ s).map (·.toNat - 48)) =
      digitsValue (s.map (·.toNat - 48)) := by
  rw [digitsValue_map, digitsValue_map, Nat.ofDigitChars_append, Nat.ofDigitChars_replicate_zero,
    mul_zero]

/-- The value of digits has no more digits than there are. -/
theorem digitsValue_lt {digits : List ℕ} (h : ∀ digit ∈ digits, digit < 10) :
    digitsValue digits < 10 ^ digits.length := by
  have hreverse : digitsValue digits = Nat.ofDigits 10 digits.reverse := by
    rw [Nat.ofDigits_eq_foldr, digitsValue, ← List.foldl_reverse, List.reverse_reverse]
    simp [add_comm, mul_comm]
  rw [hreverse, ← List.length_reverse]
  exact Nat.ofDigits_lt_base_pow_length (by norm_num) (by simpa using h)

/-! ## Runs of digits -/

/-- A run of digits is taken up to the first character that is no digit. -/
theorem takeDigits_append {digits rest : List Char} (hdigits : ∀ c ∈ digits, c.isDigit = true)
    (hrest : ∀ c ∈ rest.head?, c.isDigit = false) :
    takeDigits (digits ++ rest) = (digits.map (·.toNat - 48), rest) := by
  have hstop : rest.takeWhile Char.isDigit = [] ∧ rest.dropWhile Char.isDigit = rest := by
    cases rest with
    | nil => exact ⟨rfl, rfl⟩
    | cons c rest => simp [hrest c rfl]
  rw [takeDigits, List.takeWhile_append_of_pos hdigits, List.dropWhile_append_of_pos hdigits,
    hstop.1, hstop.2, List.append_nil]

theorem takeDigits_digits {digits : List Char} (hdigits : ∀ c ∈ digits, c.isDigit = true) :
    takeDigits digits = (digits.map (·.toNat - 48), []) := by
  have htake := takeDigits_append hdigits
    (show ∀ c ∈ ([] : List Char).head?, c.isDigit = false by simp)
  rwa [List.append_nil] at htake

/-- Digits without underscores are one group. -/
theorem takeGroupedDigits_digits {digits : List Char} (hdigits : ∀ c ∈ digits, c.isDigit = true)
    {afterDigit : Bool} (h : afterDigit = true ∨ digits ≠ []) :
    takeGroupedDigits afterDigit digits = some (digits.map (·.toNat - 48), []) := by
  induction digits generalizing afterDigit with
  | nil =>
    obtain rfl := h.resolve_right (by simp)
    rfl
  | cons c rest ih =>
    have hc := hdigits c (by simp)
    have hunderscore : c ≠ '_' := by
      rintro rfl
      cases hc
    rw [takeGroupedDigits, if_pos hc, ih (fun x hx => hdigits x (by simp [hx])) (.inl rfl)]
    · rfl
    · exact hunderscore

/-- The digits of a numeral are digits. -/
theorem lt_ten_of_takeGroupedDigits {afterDigit : Bool} {s after : List Char} {digits : List ℕ}
    (h : takeGroupedDigits afterDigit s = some (digits, after)) : ∀ digit ∈ digits, digit < 10 := by
  induction s generalizing afterDigit digits with
  | nil =>
    rw [takeGroupedDigits] at h
    split at h
    · cases h
      simp
    · cases h
  | cons c rest ih =>
    by_cases hunderscore : c = '_'
    · subst hunderscore
      rw [takeGroupedDigits] at h
      split at h
      · exact ih h
      · cases h
    · rw [takeGroupedDigits] at h
      · split at h
        · rename_i hdigit
          obtain ⟨⟨more, left⟩, hmore, heq⟩ := Option.map_eq_some_iff.1 h
          cases heq
          intro digit hmem
          rcases List.mem_cons.1 hmem with rfl | hmem
          · rw [Char.isDigit, Bool.and_eq_true, decide_eq_true_eq, decide_eq_true_eq] at hdigit
            have hle : c.toNat ≤ 57 := hdigit.2
            omega
          · exact ih hmore digit hmem
        · split at h
          · cases h
            simp
          · cases h
      · exact hunderscore

/-! ## Printable characters -/

/-- A printable ASCII character that is not an underscore. All characters of numerals are. -/
structure Printable (c : Char) : Prop where
  gt : 32 < c.toNat
  lt : c.toNat < 127
  ne : c ≠ '_'

instance : DecidablePred Printable := fun c =>
  decidable_of_iff (32 < c.toNat ∧ c.toNat < 127 ∧ c ≠ '_')
    ⟨fun ⟨hgt, hlt, hne⟩ => ⟨hgt, hlt, hne⟩, fun h => ⟨h.gt, h.lt, h.ne⟩⟩

theorem printable_of_all {s : List Char} (h : (s.all fun c => decide (Printable c)) = true) :
    ∀ c ∈ s, Printable c := by
  simpa using h

theorem printable_of_isDigit {c : Char} (h : c.isDigit = true) : Printable c := by
  simp only [Char.isDigit, Bool.and_eq_true, decide_eq_true_eq] at h
  have hlow : 48 ≤ c.toNat := h.1
  have hhigh : c.toNat ≤ 57 := h.2
  refine ⟨by omega, by omega, ?_⟩
  rintro rfl
  exact absurd hhigh (by decide)

theorem Printable.isBlank {c : Char} (h : Printable c) : isBlank c = false := by
  have := h.gt
  have := h.lt
  simp only [Text.isBlank, Bool.or_eq_false_iff, Bool.and_eq_false_iff, decide_eq_false_iff_not,
    beq_eq_false_iff_ne]
  omega

theorem Printable.isAsciiBlank {c : Char} (h : Printable c) : isAsciiBlank c = false := by
  have := h.gt
  simp only [Text.isAsciiBlank, Bool.or_eq_false_iff, Bool.and_eq_false_iff,
    decide_eq_false_iff_not, beq_eq_false_iff_ne]
  omega

theorem Printable.plainCharacter {c : Char} (h : Printable c) : plainCharacter c = c :=
  if_pos h.lt

/-- Reading a numeral leaves printable characters as they are. -/
theorem map_plainCharacter {s : List Char} (h : ∀ c ∈ s, Printable c) :
    s.map plainCharacter = s := by
  rw [List.map_congr_left (fun c hc => (h c hc).plainCharacter), List.map_id']

end MemoryLimit.Text
