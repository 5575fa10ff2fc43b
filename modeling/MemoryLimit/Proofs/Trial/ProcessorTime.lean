import Mathlib
import MemoryLimit.Proofs.Decimal.Quotient
import MemoryLimit.Proofs.Text.Lines
import MemoryLimit.Proofs.Text.Words
import MemoryLimit.Proofs.Trial.Collection

/-!
# Processor time is read exactly

An accounting file has a key and a value on each line of two words; other lines say nothing. Of
several values of a key the last one counts, and if that is no integer there is none, whatever the
lines before it have. Microseconds with at most 28 digits are converted to seconds without rounding.

## Main definitions

* `Text.Mentions` — a text has a value for a key.
* `Text.Assigns` — the value that counts.

## Main statements

* `microseconds_exact` — the seconds of as many microseconds.
* `lastValue?_keyedLines` — the value that is found for a key is the one that counts.
* `readCpu_exact` — what is read from an accounting file.
-/
namespace MemoryLimit

open Text

/-! ## Seconds -/

/-- **Microseconds of at most 28 digits are converted without rounding.** -/
theorem microseconds_exact {n : ℤ} (hn : |n| < 10 ^ 28) :
    ∃ x : Number, microseconds n = .ok (.finite x) ∧ x.toRat = n / 10 ^ 6 := by
  have hdigits : digitCount n.natAbs ≤ 28 := by
    rw [digitCount_le_iff (by decide)]
    rw [Int.abs_eq_natAbs] at hn
    exact_mod_cast hn
  have hpos := digitCount_pos n.natAbs
  -- six of the digits that the dividend is shifted by are enough
  obtain ⟨shift, hshift, hsix, hmost⟩ : ∃ shift : ℕ, Context.standard.quotientShift (.ofInt n)
      (.ofInt 1000000) = shift ∧ 6 ≤ shift ∧ shift ≤ 36 := by
    have hseven : digitCount (Number.ofInt 1000000).coefficient = 7 := by decide
    refine ⟨36 - digitCount n.natAbs, ?_, by omega, by omega⟩
    rw [Context.quotientShift, hseven, show Context.standard.precision = 28 from rfl,
      show (Number.ofInt n).coefficient = n.natAbs from rfl]
    omega
  have hdvd : (Number.ofInt 1000000).coefficient ∣ (Number.ofInt n).coefficient * 10 ^ shift := by
    rw [show (Number.ofInt 1000000).coefficient = 10 ^ 6 by decide]
    exact (pow_dvd_pow 10 hsix).mul_left _
  have hvalue : (Number.ofInt n).toRat / (Number.ofInt 1000000).toRat = n / 10 ^ 6 := by
    rw [Number.toRat_ofInt, Number.toRat_ofInt]
    norm_num
  have hwritten : Representable Context.standard.precision ((n : ℚ) / 10 ^ 6) := by
    have hrepresentable := representable_int_mul hn.le (-6)
    rwa [zpow_neg, ← div_eq_mul_inv] at hrepresentable
  have hbig : |(n : ℚ) / 10 ^ 6| ≤ (10 : ℚ) ^ Context.standard.maxExponent := by
    have hn' : |(n : ℚ)| < 10 ^ (28 : ℤ) := by exact_mod_cast hn
    calc |(n : ℚ) / 10 ^ 6| = |(n : ℚ)| / 10 ^ 6 := by
          rw [abs_div, abs_of_pos (by norm_num : (0 : ℚ) < 10 ^ 6)]
      _ ≤ |(n : ℚ)| := div_le_self (abs_nonneg _) (by norm_num)
      _ ≤ 10 ^ (28 : ℤ) := hn'.le
      _ ≤ 10 ^ Context.standard.maxExponent := zpow_le_zpow_right₀ (by norm_num) (by decide)
  have hexponents : (Number.ofInt n).exponent - (Number.ofInt 1000000).exponent - shift = -shift := by
    simp [Number.ofInt]
  have hmin : Context.standard.minUnit ≤ -1000000 := by decide
  have hmax : 0 ≤ Context.standard.maxExponent := by decide
  obtain ⟨r, hr, hexact⟩ := Context.divNumber_exact (by decide) hshift hdvd (by decide)
    (hvalue ▸ hwritten) (by omega) (by omega) (hvalue ▸ hbig)
  exact ⟨r, by rw [microseconds, hr]; rfl, hexact.trans hvalue⟩

/-! ## Values of keys -/

namespace Text

/-- A text has a value for a key: one of its lines has exactly two words, the key first. -/
def Mentions (text key : String) : Prop :=
  ∃ line ∈ splitLines text.toList, ∃ word, IsPair key.toList word line

/-- The value that a text has for a key: it is the second word of the last line that has exactly two
words, the key first. -/
def Assigns (text key value : String) : Prop :=
  ∃ before line after, splitLines text.toList = before ++ line :: after ∧
    IsPair key.toList value.toList line ∧ ∀ later ∈ after, ∀ word, ¬ IsPair key.toList word later

end Text

theorem keyedLine?_eq_some_iff {line : List Char} {key value : String} :
    keyedLine? line = some (key, value) ↔ IsPair key.toList value.toList line := by
  rw [← words_eq_pair_iff, keyedLine?]
  split
  · rename_i first second hwords
    rw [hwords]
    simp [← String.toList_inj]
  · rename_i hwords
    constructor
    · rintro ⟨⟩
    · intro hpair
      exact absurd hpair (hwords _ _)

/-- Lines without a key have no value for it. -/
theorem lastValue?_eq_none {lines : List (List Char)} {key : String}
    (hnone : ∀ line ∈ lines, ∀ word, ¬ IsPair key.toList word line) :
    lastValue? key (lines.filterMap keyedLine?) = none := by
  rw [lastValue?, List.lookup_eq_none_iff]
  rintro ⟨other, value⟩ hmem
  obtain ⟨line, hline, hkeyed⟩ := List.mem_filterMap.1 (List.mem_reverse.1 hmem)
  rw [bne_iff_ne]
  rintro rfl
  exact hnone line hline value.toList (keyedLine?_eq_some_iff.1 hkeyed)

/-- **The value that is found for a key is the one that counts.** -/
theorem lastValue?_keyedLines {text key value : String} (hvalue : Text.Assigns text key value) :
    lastValue? key (keyedLines text) = some value := by
  obtain ⟨before, line, after, hlines, hline, hafter⟩ := hvalue
  have hlater := lastValue?_eq_none hafter
  rw [lastValue?] at hlater
  rw [keyedLines, hlines, lastValue?, List.filterMap_append,
    List.filterMap_cons_some (keyedLine?_eq_some_iff.2 hline), List.reverse_append,
    List.reverse_cons, List.append_assoc, List.lookup_append, hlater]
  simp

/-! ## Reading -/

variable {h : Host} {group : Path} {text : String}

/-- An accounting file is read by its lines, whatever ends them. -/
theorem runOn_readCpu_of_holds (hholds : h.Holds (group.child ControlFile.cpuStat) text) :
    ∃ t, (readCpu group).runOn h =
      (match lastValue? ControlFile.usageMicroseconds (keyedLines text) with
        | none => .error (.accounting (.missing ControlFile.usageMicroseconds
            (group.child ControlFile.cpuStat).text))
        | some value =>
          match readInteger value with
          | .error _ => .error (.accounting (.malformed ControlFile.usageMicroseconds
              (group.child ControlFile.cpuStat).text value))
          | .ok n => microseconds n, t) := by
  obtain ⟨t, hread⟩ := Host.runOn_readText hholds
  refine ⟨t, ?_⟩
  rw [runOn_readCpu_eq hread, keyedLines, String.toList_ofList, splitLines_foldReturns]
  rfl

/-- **Processor time is read exactly.** If the accounting file of a group has microseconds, the last
ones count: as an integer of at most 28 digits they are the exact seconds, and if they are no integer
that is the failure, whatever the lines before say. A file without microseconds is another failure. -/
theorem readCpu_exact (hholds : h.Holds (group.child ControlFile.cpuStat) text) :
    (∀ value, Text.Assigns text ControlFile.usageMicroseconds value →
      (∀ n, readInteger value = .ok n → |n| < 10 ^ 28 →
        ∃ x t, (readCpu group).runOn h = (.ok (.finite x), t) ∧ x.toRat = n / 10 ^ 6) ∧
      ∀ fault, readInteger value = .error fault →
        ∃ t, (readCpu group).runOn h =
          (.error (.accounting (.malformed ControlFile.usageMicroseconds
            (group.child ControlFile.cpuStat).text value)), t)) ∧
    (¬ Text.Mentions text ControlFile.usageMicroseconds →
      ∃ t, (readCpu group).runOn h =
        (.error (.accounting (.missing ControlFile.usageMicroseconds
          (group.child ControlFile.cpuStat).text)), t)) := by
  obtain ⟨t, hrun⟩ := runOn_readCpu_of_holds hholds
  refine ⟨fun value hvalue => ?_, fun hnone => ?_⟩
  · rw [lastValue?_keyedLines hvalue] at hrun
    constructor
    · intro n hn hbound
      obtain ⟨x, hx, hexact⟩ := microseconds_exact hbound
      simp only [hn, hx] at hrun
      exact ⟨x, t, hrun, hexact⟩
    · intro fault hfault
      simp only [hfault] at hrun
      exact ⟨t, hrun⟩
  · have hlines : ∀ line ∈ splitLines text.toList, ∀ word,
        ¬ IsPair ControlFile.usageMicroseconds.toList word line :=
      fun line hline word hpair => hnone ⟨line, hline, word, hpair⟩
    rw [keyedLines, lastValue?_eq_none hlines] at hrun
    exact ⟨t, hrun⟩

/-- A host with a group whose accounting file has a text. -/
def Host.accounting (text : String) : Host where
  tree := ⟨[(["group"], .directory), (["group", "cpu.stat"], .file text.toUTF8)]⟩

/-- The last value of the key counts, between any blanks; a line of three words is none. -/
theorem readCpu_exact_grouped :
    let text := "usage_usec x\n usage_usec\u00a0 1_000_001\r\nusage_usec 7 8\n"
    (Host.accounting text).Holds ((Path.read "/group").child ControlFile.cpuStat) text ∧
    Text.Assigns text ControlFile.usageMicroseconds "1_000_001" ∧
    readInteger "1_000_001" = .ok 1000001 ∧ |(1000001 : ℤ)| < 10 ^ 28 ∧
    ∃ x t, (readCpu (.read "/group")).runOn (.accounting text) = (.ok (.finite x), t) ∧
      x.toRat = (1000001 : ℤ) / 10 ^ 6 := by
  intro text
  have hholds : (Host.accounting text).Holds ((Path.read "/group").child ControlFile.cpuStat)
      text := ⟨by decide, rfl, rfl⟩
  have hassigns : Text.Assigns text ControlFile.usageMicroseconds "1_000_001" := by
    refine ⟨["usage_usec x".toList], " usage_usec\u00a0 1_000_001".toList,
      ["usage_usec 7 8".toList], by decide +kernel, words_eq_pair_iff.1 (by decide +kernel), ?_⟩
    intro later hlater word hpair
    have hthree : (words "usage_usec 7 8".toList).length = 3 := by decide +kernel
    rw [List.mem_singleton.1 hlater, ← words_eq_pair_iff] at hpair
    rw [hpair] at hthree
    cases hthree
  have hinteger : readInteger "1_000_001" = .ok 1000001 := by decide +kernel
  have hbound : |(1000001 : ℤ)| < 10 ^ 28 := by decide
  exact ⟨hholds, hassigns, hinteger, hbound,
    ((readCpu_exact hholds).1 _ hassigns).1 _ hinteger hbound⟩

end MemoryLimit
