import Mathlib
import MemoryLimit.Proofs.Binary64.Rounding
import MemoryLimit.Proofs.Decimal.Moderate
import MemoryLimit.Proofs.Trial.Record

/-!
# Texts of binary numbers are read as decimal numbers

The text of a binary number is a numeral, whatever its digits are and wherever its point stands: it has
a moderate number of digits and a moderate exponent, so it is read as a decimal number that can be
calculated with.

## Main definitions

* `Binary64.InFormat` — a number of the format, an infinity, or no number.
* `Binary64.Spells` — how digits with a point are written.
* `Decimal.Moderate` — a decimal number that divisors may be.

## Main statements

* `Binary64.inFormat_sub` — differences are in the format.
* `Binary64.readFraction?_digitsText` — digits and a point are a numeral.
* `Binary64.decimalOfText_text` — the text of a number in the format is read.
-/
namespace MemoryLimit

open Text

/-! ## Counting digits -/

theorem digitCount_mono {a b : ℕ} (h : a ≤ b) : digitCount a ≤ digitCount b :=
  (digitCount_le_iff (digitCount_pos b)).2 (h.trans_lt (lt_ten_pow_digitCount b))

/-- A number below a power of two has fewer digits than the power has factors. -/
theorem digitCount_le_of_lt_two_pow {n k : ℕ} (hk : 0 < k) (h : n < 2 ^ k) : digitCount n ≤ k :=
  (digitCount_le_iff hk).2 (h.trans_le (Nat.pow_le_pow_left (by norm_num) k))

namespace Binary64

/-! ## Numbers in the format -/

/-- A number of the format, an infinity, or no number. -/
def InFormat : Binary64 → Prop
  | finite _ m e => Fits m e
  | _ => True

theorem inFormat_zero (negative : Bool) : (zero negative).InFormat :=
  fits_zero

theorem inFormat_ofRatio (negative : Bool) (n : ℕ) {d : ℕ} (hd : d ≠ 0) :
    (ofRatio negative n d).InFormat := by
  rcases ofRatio_cases negative n hd with ⟨hinfinite, -⟩ | ⟨m, e, hfinite, hfits, -⟩
  · rw [hinfinite]
    trivial
  · rw [hfinite]
    exact hfits

/-- A difference is rounded, so it is in the format whatever is subtracted. -/
theorem inFormat_sub (x y : Binary64) : (x.sub y).InFormat := by
  have hpow : ∀ unit : ℤ, 2 ^ (-unit).toNat ≠ 0 := fun unit => by positivity
  rw [sub]
  cases x <;> cases y <;> simp only [neg, add]
  · split
    · exact inFormat_zero _
    · exact inFormat_ofRatio _ _ (hpow _)
  all_goals first | trivial | (split <;> trivial)

theorem inFormat_orZero {x : Binary64} (h : x.InFormat) : x.orZero.InFormat := by
  rw [orZero]
  split
  · exact inFormat_zero false
  · exact h

/-! ## The shortest digits -/

/-- No multiple in a basin is much more than the basin's value in the multiple's units. -/
theorem nearest?_le {b : Basin} {place : ℤ} {k : ℕ} (h : b.nearest? place = some k) :
    k ≤ b.value * (gridRatio b.unit place).1 + 1 := by
  obtain ⟨num, den, hratio⟩ : ∃ num den, gridRatio b.unit place = (num, den) := ⟨_, _, rfl⟩
  rw [Basin.nearest?, hratio] at h
  rw [hratio]
  dsimp -zeta only at h ⊢
  extract_lets below inside nearest other at h
  have hbelow : below ≤ b.value * num := Nat.div_le_self _ _
  have hnearest : nearest ≤ below + 1 := roundHalfEven_le _ _
  have hother : other ≤ below + 1 := by
    simp only [other]
    split <;> omega
  clear_value below inside nearest other
  split at h
  · cases h
    omega
  · split at h
    · cases h
      omega
    · cases h

/-- The last digit of what is tried stands at most as many places behind the first as there are tries. -/
theorem shortestFrom_spec (b : Basin) (magnitude : ℤ) (fuel digits : ℕ) :
    magnitude - digits - fuel ≤ (b.shortestFrom magnitude fuel digits).2 ∧
      (b.shortestFrom magnitude fuel digits).2 ≤ magnitude - digits ∧
      (b.shortestFrom magnitude fuel digits).1 ≤
        b.value * (gridRatio b.unit (b.shortestFrom magnitude fuel digits).2).1 + 1 := by
  induction fuel generalizing digits with
  | zero =>
    rw [Basin.shortestFrom]
    refine ⟨by simp, le_rfl, ?_⟩
    cases hnear : b.nearest? (magnitude - digits) with
    | none => simp
    | some k => exact nearest?_le hnear
  | succ fuel ih =>
    rw [Basin.shortestFrom]
    cases hnear : b.nearest? (magnitude - digits) with
    | none =>
      obtain ⟨hlow, hhigh, hvalue⟩ := ih (digits + 1)
      push_cast at hlow hhigh ⊢
      exact ⟨by omega, by omega, hvalue⟩
    | some k => exact ⟨by push_cast; omega, le_rfl, nearest?_le hnear⟩

theorem dropZeros_spec (fuel c : ℕ) (place : ℤ) :
    (dropZeros fuel c place).1 ≤ c ∧ place ≤ (dropZeros fuel c place).2 ∧
      (dropZeros fuel c place).2 ≤ place + fuel := by
  induction fuel generalizing c place with
  | zero => simp [dropZeros]
  | succ fuel ih =>
    rw [dropZeros]
    split
    · obtain ⟨hvalue, hlow, hhigh⟩ := ih (c / 10) (place + 1)
      refine ⟨hvalue.trans (Nat.div_le_self c 10), by omega, ?_⟩
      push_cast
      omega
    · exact ⟨le_rfl, le_rfl, by push_cast; omega⟩

/-- The value of a basin, in the units of a grid of binary digits. -/
theorem basin_value_lt {m : ℕ} {e : ℤ} (h : Fits m e) :
    (basin m e).value * 2 ^ (basin m e).unit.toNat < 2 ^ (55 + (basin m e).unit.toNat) := by
  have hvalue : (basin m e).value < 2 ^ 55 := by
    have hmantissa := h.mantissa
    simp only [basin]
    omega
  rw [pow_add]
  exact Nat.mul_lt_mul_of_pos_right hvalue (by positivity)

/-- The last binary digit of a basin stands at a moderate place. -/
theorem basin_unit_spec {m : ℕ} {e : ℤ} (h : Fits m e) :
    -1076 ≤ (basin m e).unit ∧ (basin m e).unit ≤ 969 := by
  obtain ⟨-, hleast, hgreatest⟩ := h
  simp only [basin, minExponent, maxExponent] at hleast hgreatest ⊢
  omega

/-- The first digit of a number stands at a moderate place. -/
theorem magnitude_spec {m : ℕ} {e : ℤ} (h : Fits m e) :
    -1100 ≤ (basin m e).magnitude ∧ (basin m e).magnitude ≤ 1100 := by
  have hvalue := basin_value_lt h
  obtain ⟨hlow, hhigh⟩ := basin_unit_spec h
  rw [Basin.magnitude, gridRatio]
  simp only [neg_zero, Int.toNat_zero, pow_zero, mul_one]
  generalize (basin m e).unit = unit at *
  generalize (basin m e).value * 2 ^ unit.toNat = num at *
  have hden : 2 ^ (-unit).toNat < 2 ^ ((-unit).toNat + 1) :=
    Nat.pow_lt_pow_right one_lt_two (Nat.lt_succ_self _)
  have hwhole : digitCount (num / 2 ^ (-unit).toNat) ≤ 55 + unit.toNat :=
    digitCount_le_of_lt_two_pow (by omega) ((Nat.div_le_self _ _).trans_lt hvalue)
  split
  · omega
  · rename_i hsmall
    -- the value is below one, so its inverse has no more digits than the denominator
    have hless : num < 2 ^ (-unit).toNat := by
      by_contra hlarge
      exact hsmall (Nat.div_pos (not_lt.1 hlarge) (by positivity))
    have hinverse : (2 ^ (-unit).toNat + num - 1) / num - 1 < 2 ^ ((-unit).toNat + 1) := by
      have hdiv := Nat.div_le_self (2 ^ (-unit).toNat + num - 1) num
      have hdouble : 2 ^ ((-unit).toNat + 1) = 2 * 2 ^ (-unit).toNat := by rw [pow_succ, mul_comm]
      omega
    have hplaces := digitCount_le_of_lt_two_pow (by omega) hinverse
    omega

/-- **The shortest digits of a number** are moderately many, and stand at a moderate place. -/
theorem shortest_spec {m : ℕ} {e : ℤ} (h : Fits m e) :
    ∃ (c : ℕ) (last : ℤ), shortest m e = (natDigits c, last + (natDigits c).length) ∧
      (natDigits c).length ≤ 2500 ∧ -1500 ≤ last ∧ last ≤ 1500 := by
  obtain ⟨hlow, hhigh⟩ := magnitude_spec h
  obtain ⟨hplaceLow, hplaceHigh, hcoefficient⟩ :=
    shortestFrom_spec (basin m e) (basin m e).magnitude 17 1
  obtain ⟨-, hunit⟩ := basin_unit_spec h
  rw [shortest]
  generalize (basin m e).shortestFrom (basin m e).magnitude 17 1 = found at *
  obtain ⟨k, place⟩ := found
  simp only [gridRatio] at hplaceLow hplaceHigh hcoefficient
  obtain ⟨hless, hlastLow, hlastHigh⟩ := dropZeros_spec 20 k place
  refine ⟨(dropZeros 20 k place).1, (dropZeros 20 k place).2, rfl, ?_, ?_, ?_⟩
  · have hk : k < 10 ^ (55 + (basin m e).unit.toNat + (-place).toNat + 1) := by
      have hvalue := basin_value_lt h
      generalize (basin m e).unit.toNat = u at *
      generalize (-place).toNat = q at *
      have hpos : 0 < 10 ^ q := Nat.pow_pos (by norm_num)
      calc k ≤ (basin m e).value * (2 ^ u * 10 ^ q) + 1 := hcoefficient
        _ ≤ ((basin m e).value * 2 ^ u + 1) * 10 ^ q := by
            rw [← mul_assoc, Nat.succ_mul]
            omega
        _ ≤ 2 ^ (55 + u) * 10 ^ q := Nat.mul_le_mul_right _ hvalue
        _ ≤ 10 ^ (55 + u) * 10 ^ q :=
            Nat.mul_le_mul_right _ (Nat.pow_le_pow_left (by norm_num) _)
        _ < 10 ^ (55 + u + q + 1) := by
            rw [← pow_add]
            exact Nat.pow_lt_pow_right (by norm_num) (Nat.lt_succ_self _)
    have hdigits := (digitCount_mono hless).trans ((digitCount_le_iff (by omega)).2 hk)
    exact hdigits.trans (by omega)
  · omega
  · omega

/-! ## Numerals -/

theorem readExponent?_exponentText (e : ℤ) : readExponent? (exponentText e) = some e := by
  have hsign : ∀ digits, splitSign ((if e < 0 then '-' else '+') :: digits) =
      (decide (e < 0), digits) := by
    intro digits
    by_cases h : e < 0 <;> simp [h, splitSign]
  have hall : ∀ c ∈ List.replicate (2 - (natDigits e.natAbs).length) '0' ++ natDigits e.natAbs,
      c.isDigit = true := by
    intro c hc
    rcases List.mem_append.1 hc with hzero | hdigit
    · rw [List.eq_of_mem_replicate hzero]
      rfl
    · exact isDigit_of_mem_natDigits hdigit
  -- simp needs this to pass the first pattern of the match on the digits
  have hne : (List.replicate (2 - (natDigits e.natAbs).length) '0' ++ natDigits e.natAbs).map
      (·.toNat - 48) ≠ [] := by simp [natDigits_ne_nil]
  have hsigned : signed (decide (e < 0)) e.natAbs = e := by
    by_cases h : e < 0 <;> simp only [signed, h, decide_true, decide_false, if_true, if_false,
      Bool.false_eq_true] <;> omega
  rw [exponentText, readExponent?, if_pos (by decide), hsign]
  simp only [takeDigits_digits hall]
  rw [digitsValue_zeros_append, digitsValue_natDigits, hsigned]

/-- A text is a numeral that digits with a point are written as: digits, a point with digits behind it
unless there are none, and possibly an exponent. It has few digits more than those. -/
structure Spells (digits : List Char) (point : ℤ) (numeral whole places scale : List Char) (e : ℤ) :
    Prop where
  numeral_eq : numeral = whole ++ (fractionText places ++ scale)
  whole_digits : ∀ c ∈ whole, c.isDigit = true
  places_digits : ∀ c ∈ places, c.isDigit = true
  whole_ne_nil : whole ≠ []
  scale_eq : scale = [] ∧ e = 0 ∨ scale = exponentText e ∧ e = point - 1
  length_le : (whole ++ places).length ≤ digits.length + 20

theorem isDigit_replicate_zero (k : ℕ) : ∀ c ∈ List.replicate k '0', c.isDigit = true := by
  intro c hc
  rw [List.eq_of_mem_replicate hc]
  rfl

theorem fractionText_of_ne_nil {places : List Char} (hne : places ≠ []) :
    fractionText places = '.' :: places := by
  rw [fractionText, if_neg (by simp [hne])]

section Spelling

variable {digits : List Char} {point : ℤ} (hdigits : ∀ c ∈ digits, c.isDigit = true)
include hdigits

/-- Nothing but zeros stands in front of the digits. -/
theorem spells_behind_zeros (hne : digits ≠ []) (hpoint : -4 < point) :
    Spells digits point ('0' :: '.' :: (List.replicate (-point).toNat '0' ++ digits)) ['0']
      (List.replicate (-point).toNat '0' ++ digits) [] 0 where
  numeral_eq := by
    rw [fractionText_of_ne_nil (by simp [hne]), List.append_nil]
    rfl
  whole_digits := by simp
  places_digits := by
    intro c hc
    rcases List.mem_append.1 hc with hzero | hdigit
    · exact isDigit_replicate_zero _ c hzero
    · exact hdigits c hdigit
  whole_ne_nil := by simp
  scale_eq := .inl ⟨rfl, rfl⟩
  length_le := by
    simp only [List.length_append, List.length_singleton, List.length_replicate]
    omega

/-- The point stands between the digits, or behind them and a zero is put behind it. -/
theorem spells_positional (hpos : 0 < point) (hpoint : point ≤ 16) :
    Spells digits point
      (digits.take point.toNat ++ List.replicate (point.toNat - digits.length) '0' ++
        '.' :: (if (digits.drop point.toNat).isEmpty then ['0'] else digits.drop point.toNat))
      (digits.take point.toNat ++ List.replicate (point.toNat - digits.length) '0')
      (if (digits.drop point.toNat).isEmpty then ['0'] else digits.drop point.toNat) [] 0 where
  numeral_eq := by
    rw [fractionText_of_ne_nil, List.append_nil]
    split
    · simp
    · rename_i hbehind
      simpa using hbehind
  whole_digits := by
    intro c hc
    rcases List.mem_append.1 hc with hdigit | hzero
    · exact hdigits c (List.mem_of_mem_take hdigit)
    · exact isDigit_replicate_zero _ c hzero
  places_digits := by
    split
    · simp
    · intro c hc
      exact hdigits c (List.mem_of_mem_drop hc)
  whole_ne_nil := by
    rw [Ne, ← List.length_eq_zero_iff, List.length_append, List.length_take, List.length_replicate]
    omega
  scale_eq := .inl ⟨rfl, rfl⟩
  length_le := by
    rw [List.length_append, List.length_append, List.length_take, List.length_replicate]
    split
    · rw [List.length_singleton]
      omega
    · rw [List.length_drop]
      omega

/-- How digits with a point are written. -/
theorem exists_spells (hne : digits ≠ []) (point : ℤ) :
    ∃ whole places scale e, Spells digits point (digitsText digits point) whole places scale e := by
  unfold digitsText
  by_cases hpoint : (decide (-4 < point) && decide (point ≤ 16)) = true
  · rw [if_pos hpoint]
    simp only [Bool.and_eq_true, decide_eq_true_eq] at hpoint
    by_cases hzeros : point ≤ 0
    · rw [if_pos hzeros]
      exact ⟨_, _, _, _, spells_behind_zeros hdigits hne hpoint.1⟩
    · rw [if_neg hzeros]
      exact ⟨_, _, _, _, spells_positional hdigits (by omega) hpoint.2⟩
  · rw [if_neg hpoint]
    cases digits with
    | nil => exact absurd rfl hne
    | cons d rest =>
      refine ⟨[d], rest, exponentText (point - 1), point - 1, ?_, ?_, ?_, by simp, .inr ⟨rfl, rfl⟩,
        by simp⟩
      · cases rest with
        | nil => rfl
        | cons c rest => simp [fractionText]
      · intro c hc
        exact hdigits c (List.mem_cons.2 (.inl (List.mem_singleton.1 hc)))
      · intro c hc
        exact hdigits c (List.mem_cons_of_mem d hc)

end Spelling

/-- The text of a number: its sign, and moderately many digits with a moderate point. -/
theorem toList_text {m : ℕ} {e : ℤ} (negative : Bool) (h : Fits m e) :
    ∃ (digits : List Char) (point : ℤ),
      (text (.finite negative m e)).toList = signText negative ++ digitsText digits point ∧
      (∀ c ∈ digits, c.isDigit = true) ∧ digits ≠ [] ∧
      digits.length ≤ 2500 ∧ -1500 ≤ point ∧ point ≤ 4000 := by
  have hsign : ∀ magnitude : List Char,
      (if negative then '-' :: magnitude else magnitude) = signText negative ++ magnitude := by
    intro magnitude
    cases negative <;> rfl
  rw [text, String.toList_ofList]
  by_cases hm : m = 0
  · refine ⟨['0'], 1, ?_, by simp, by simp, by simp, by norm_num, by norm_num⟩
    rw [if_pos hm, hsign]
    rfl
  · obtain ⟨c, last, hshortest, hlength, hlow, hhigh⟩ := shortest_spec h
    refine ⟨natDigits c, last + (natDigits c).length, ?_, fun _ => isDigit_of_mem_natDigits,
      natDigits_ne_nil c, hlength, by omega, by omega⟩
    rw [if_neg hm, hshortest, hsign]

end Binary64

/-- A decimal number that can be calculated with: a moderate number, an infinity, or no number that is
carried through. -/
def Decimal.Moderate : Decimal → Prop
  | .finite x => x.Within 9000
  | .infinity _ => True
  | .nan _ signaling _ => signaling = false

/-- Moderate numbers can be held. -/
theorem Number.Within.isExact {x : Number} {k : ℕ} (h : x.Within k) (hk : k ≤ 100000) :
    x.isExact = true := by
  obtain ⟨hdigits, hlow, hhigh⟩ := h
  rw [Number.isExact, Bool.and_eq_true, decide_eq_true_eq, decide_eq_true_eq, Number.adjusted,
    exactMinUnit, exactMaxExponent]
  constructor
  · omega
  · split <;> omega

namespace Binary64

/-- Digits with a moderate point are a numeral of a moderate number. -/
theorem readFraction?_digitsText {digits : List Char} (hdigits : ∀ c ∈ digits, c.isDigit = true)
    (hne : digits ≠ []) {point : ℤ} (hlength : digits.length ≤ 2500) (hlow : -1500 ≤ point)
    (hhigh : point ≤ 4000) (negative : Bool) :
    ∃ f, readFraction? (digitsText digits point) = some f ∧
      Number.Within ⟨negative, f.coefficient, f.exponent⟩ 9000 := by
  obtain ⟨whole, places, scale, e, htext, hwhole, hplaces, hwholeNe, hscale, htotal⟩ :=
    exists_spells hdigits hne point
  have hread : readExponent? scale = some e := by
    rcases hscale with ⟨rfl, rfl⟩ | ⟨rfl, -⟩
    · rfl
    · exact readExponent?_exponentText e
  have hhead : ∀ c ∈ scale.head?, c.isDigit = false ∧ c ≠ '.' := by
    rcases hscale with ⟨rfl, -⟩ | ⟨rfl, -⟩
    · simp
    · simp [exponentText]
  have hten : ∀ d ∈ (whole ++ places).map (·.toNat - 48), d < 10 := by
    intro d hd
    obtain ⟨c, hc, rfl⟩ := List.mem_map.1 hd
    have hdigit : c.isDigit = true := (List.mem_append.1 hc).elim (hwhole c) (hplaces c)
    simp only [Char.isDigit, Bool.and_eq_true, decide_eq_true_eq] at hdigit
    have hnine : c.toNat ≤ 57 := hdigit.2
    omega
  have hpos : 0 < (whole ++ places).length := by
    rw [List.length_append]
    exact Nat.add_pos_left (List.length_pos_iff.2 hwholeNe) _
  have hcount : digitCount (digitsValue ((whole ++ places).map (·.toNat - 48))) ≤
      (whole ++ places).length := by
    rw [digitCount_le_iff hpos]
    simpa using digitsValue_lt hten
  have hexponent : e = 0 ∨ e = point - 1 := hscale.imp (·.2) (·.2)
  rw [List.length_append] at htotal hcount
  refine ⟨_, by rw [htext, readFraction?_digits hwhole hplaces hwholeNe hread hhead], ?_, ?_, ?_⟩
  · exact hcount.trans (by omega)
  · simp only
    omega
  · simp only
    omega

/-- **The text of a number in the format is read** as a decimal number that can be calculated with. -/
theorem decimalOfText_text {x : Binary64} (h : x.InFormat) :
    ∃ d, decimalOfText x.text = .ok d ∧ d.Moderate := by
  cases x with
  | nan => exact ⟨.nan false false 0, rfl, rfl⟩
  | infinity negative => cases negative <;> exact ⟨_, rfl, trivial⟩
  | finite negative m e =>
    obtain ⟨digits, point, htext, hdigits, hne, hlength, hlow, hhigh⟩ := toList_text negative h
    obtain ⟨f, hfraction, hwithin⟩ :=
      readFraction?_digitsText hdigits hne hlength hlow hhigh negative
    refine ⟨.finite ⟨negative, f.coefficient, f.exponent⟩, ?_, hwithin⟩
    obtain ⟨c, rest, hbegin, hc⟩ : ∃ c rest, digitsText digits point = c :: rest ∧
        c.isDigit = true := by
      obtain ⟨whole, places, scale, e, hspells⟩ := exists_spells hdigits hne point
      cases whole with
      | nil => exact absurd rfl hspells.whole_ne_nil
      | cons c whole => exact ⟨c, _, hspells.numeral_eq, hspells.whole_digits c List.mem_cons_self⟩
    have hminus : c ≠ '-' := by rintro rfl; cases hc
    have hplus : c ≠ '+' := by rintro rfl; cases hc
    have hprintable : ∀ c ∈ signText negative ++ digitsText digits point, Printable c :=
      fun c hc => (isPlain_of_mem_text (htext ▸ hc)).printable
    have hfilter : (signText negative ++ digitsText digits point).filter (· ≠ '_') =
        signText negative ++ digitsText digits point :=
      List.filter_eq_self.2 fun c hc => by simpa using (hprintable c hc).ne
    have hsplit : splitSign (signText negative ++ digitsText digits point) =
        (negative, digitsText digits point) := by
      rw [hbegin]
      exact splitSign_signText_append negative hminus hplus
    have hspecial : readSpecial? negative (digitsText digits point) = none := by
      rw [hbegin]
      exact readSpecial?_digit negative hc rest
    rw [decimalOfText, readDecimal, htext, trim_eq_self fun c hc => (hprintable c hc).isBlank,
      hfilter, map_plainCharacter hprintable, readPlainDecimal, hsplit]
    simp only [hspecial, hfraction]
    rw [if_pos (hwithin.isExact (by norm_num))]
    rfl

end Binary64

end MemoryLimit
