import Mathlib
import MemoryLimit.Decimal.Printer
import MemoryLimit.Decimal.Reader
import MemoryLimit.Proofs.Text.Digits
import MemoryLimit.Proofs.Text.Words

/-!
# Decimal numbers are read as they are written

The text of a decimal number has all there is to it: its sign, its digits, its scale, and the
payload of no number. Reading it gives the same number back, whether it is written with a point
or with an exponent.

## Main definitions

* `Decimal.Held` — the decimal numbers that there are: exponents have a range.

## Main statements

* `Number.readFraction?_magnitudeText` — digits and scale are read as they are written.
* `readDecimal_text` — every decimal number is read as it is written.
-/
namespace MemoryLimit

open Text

/-- The number can be held without changing its exponent. That is so for every number that there
is. -/
def Decimal.Held : Decimal → Prop
  | .finite x => x.isExact = true
  | _ => True

instance : DecidablePred Decimal.Held
  | .finite x => inferInstanceAs (Decidable (x.isExact = true))
  | .infinity _ => isTrue trivial
  | .nan .. => isTrue trivial

/-! ## Fractions -/

theorem readExponent?_scaleText (e : ℤ) : readExponent? (scaleText e) = some e := by
  have hsign : splitSign ((if e < 0 then '-' else '+') :: natDigits e.natAbs) =
      (decide (e < 0), natDigits e.natAbs) := by
    by_cases h : e < 0 <;> simp [h, splitSign]
  have hdigits : takeDigits (natDigits e.natAbs) =
      ((natDigits e.natAbs).map (·.toNat - 48), []) :=
    takeDigits_digits fun _ => isDigit_of_mem_natDigits
  -- simp needs this to pass the first pattern of the match on the digits
  have hne : (natDigits e.natAbs).map (·.toNat - 48) ≠ [] := by simp [natDigits_ne_nil]
  have hsigned : signed (decide (e < 0)) e.natAbs = e := by
    by_cases h : e < 0 <;> simp only [signed, h, decide_true, decide_false, if_true, if_false,
      Bool.false_eq_true] <;> omega
  rw [scaleText, readExponent?, if_pos (by decide), hsign]
  simp only [hdigits]
  rw [digitsValue_natDigits, hsigned]

/-- A fraction is read from the digits before and after its point, and its exponent. -/
theorem readFraction?_digits {whole places scale : List Char} {e : ℤ}
    (hwhole : ∀ c ∈ whole, c.isDigit = true) (hplaces : ∀ c ∈ places, c.isDigit = true)
    (hne : whole ≠ []) (hscale : readExponent? scale = some e)
    (hhead : ∀ c ∈ scale.head?, c.isDigit = false ∧ c ≠ '.') :
    readFraction? (whole ++ (fractionText places ++ scale)) =
      some ⟨digitsValue ((whole ++ places).map (·.toNat - 48)), e - places.length⟩ := by
  have hwhole' : (whole.map (·.toNat - 48)).isEmpty = false := by simpa using hne
  rw [readFraction?]
  cases hp : places with
  | nil =>
    rw [show fractionText [] = [] from rfl, List.nil_append,
      takeDigits_append hwhole (fun c hc => (hhead c hc).1)]
    simp only
    split
    · exact absurd rfl (hhead '.' rfl).2
    · simp [hwhole', hscale]
  | cons c rest =>
    rw [← hp, show fractionText places = '.' :: places by rw [hp]; rfl, List.cons_append,
      takeDigits_append hwhole (by
        rintro _ ⟨⟩
        decide)]
    simp only
    rw [takeDigits_append hplaces (fun c hc => (hhead c hc).1)]
    simp [hwhole', hscale]

/-- How the magnitude of a number is written: digits, a point with digits behind it unless there are
none, and possibly an exponent. Together they are the coefficient and the scale of the number. -/
theorem Number.magnitudeText_eq (x : Number) :
    ∃ (whole places scale : List Char) (e : ℤ),
      x.magnitudeText = whole ++ (fractionText places ++ scale) ∧
      (∀ c ∈ whole, c.isDigit = true) ∧ (∀ c ∈ places, c.isDigit = true) ∧ whole ≠ [] ∧
      (scale = [] ∧ e = 0 ∨ scale = scaleText e) ∧
      digitsValue ((whole ++ places).map (·.toNat - 48)) = x.coefficient ∧
      e - places.length = x.exponent := by
  have hlength : 0 < (natDigits x.coefficient).length := digitCount_pos _
  have hdigits : ∀ c ∈ natDigits x.coefficient, c.isDigit = true :=
    fun _ => isDigit_of_mem_natDigits
  have hvalue := digitsValue_natDigits x.coefficient
  rw [magnitudeText]
  set digits := natDigits x.coefficient
  have htake : ∀ k, ∀ c ∈ digits.take k, c.isDigit = true := by
    intro k c hc
    exact hdigits c (List.mem_of_mem_take hc)
  have hdrop : ∀ k, ∀ c ∈ digits.drop k, c.isDigit = true := by
    intro k c hc
    exact hdigits c (List.mem_of_mem_drop hc)
  split <;> rename_i hpositional
  · simp only [Bool.and_eq_true, decide_eq_true_eq] at hpositional
    split <;> rename_i hpoint
    · -- nothing but zeros stands in front of the digits
      refine ⟨['0'], List.replicate (-(x.exponent + digits.length)).toNat '0' ++ digits, [], 0, ?_,
        by simp, ?_, by simp, .inl ⟨rfl, rfl⟩, ?_, ?_⟩
      · rw [fractionText, if_neg (by
          rw [List.isEmpty_iff, ← List.length_eq_zero_iff, List.length_append]
          omega), List.append_nil]
        rfl
      · intro c hc
        rcases List.mem_append.1 hc with hzero | hdigit
        · rw [List.eq_of_mem_replicate hzero]
          decide
        · exact hdigits c hdigit
      · rw [← List.append_assoc, ← List.replicate_one, List.replicate_append_replicate,
          digitsValue_zeros_append, hvalue]
      · rw [List.length_append, List.length_replicate]
        push_cast
        omega
    · -- the point stands between the digits, or behind them
      obtain ⟨k, hk⟩ : ∃ k : ℕ, x.exponent + digits.length = k :=
        ⟨_, (Int.toNat_of_nonneg (by omega)).symm⟩
      refine ⟨digits.take k, digits.drop k, [], 0, ?_, htake k, hdrop k, ?_, .inl ⟨rfl, rfl⟩, ?_,
        ?_⟩
      · rw [hk, Int.toNat_natCast, List.append_nil]
      · rw [Ne, ← List.length_eq_zero_iff, List.length_take]
        omega
      · rw [List.take_append_drop, hvalue]
      · rw [List.length_drop]
        omega
  · simp only [Bool.and_eq_true, decide_eq_true_eq, not_and, not_lt] at hpositional
    have hpoint : x.exponent + digits.length ≠ 1 := by
      intro h
      have := hpositional (by omega)
      omega
    refine ⟨digits.take 1, digits.drop 1, scaleText (x.exponent + digits.length - 1),
      x.exponent + digits.length - 1, ?_, htake 1, hdrop 1, ?_, .inr rfl, ?_, ?_⟩
    · rw [if_neg hpoint, List.append_assoc]
    · rw [Ne, ← List.length_eq_zero_iff, List.length_take]
      omega
    · rw [List.take_append_drop, hvalue]
    · rw [List.length_drop]
      omega

/-- **Digits and scale are read as they are written.** -/
theorem Number.readFraction?_magnitudeText (x : Number) :
    readFraction? x.magnitudeText = some ⟨x.coefficient, x.exponent⟩ := by
  obtain ⟨whole, places, scale, e, htext, hwhole, hplaces, hne, hscale, hvalue, hexponent⟩ :=
    x.magnitudeText_eq
  have hread : readExponent? scale = some e := by
    rcases hscale with ⟨rfl, rfl⟩ | rfl
    · rfl
    · exact readExponent?_scaleText e
  have hhead : ∀ c ∈ scale.head?, c.isDigit = false ∧ c ≠ '.' := by
    rcases hscale with ⟨rfl, -⟩ | rfl
    · simp
    · rintro _ ⟨⟩
      decide
  rw [htext, readFraction?_digits hwhole hplaces hne hread hhead, hvalue, hexponent]

/-! ## Signs and names -/

/-- The magnitude of a number begins with a digit. -/
theorem Number.head?_magnitudeText (x : Number) :
    ∃ c rest, x.magnitudeText = c :: rest ∧ c.isDigit = true := by
  obtain ⟨whole, places, scale, e, htext, hwhole, -, hne, -⟩ := x.magnitudeText_eq
  cases whole with
  | nil => exact absurd rfl hne
  | cons c whole => exact ⟨c, _, htext, hwhole c (by simp)⟩

theorem splitSign_signText_append (negative : Bool) {c : Char} {rest : List Char} (hminus : c ≠ '-')
    (hplus : c ≠ '+') : splitSign (signText negative ++ c :: rest) = (negative, c :: rest) := by
  cases negative <;> simp [signText, splitSign, hminus, hplus]

theorem toLower_digit {c : Char} (hc : c.isDigit = true) : c.toLower = c := by
  simp only [Char.isDigit, Bool.and_eq_true, decide_eq_true_eq] at hc
  rw [Char.toLower, dif_neg]
  rintro ⟨hupper, -⟩
  have hhigh : c.toNat ≤ 57 := hc.2
  have hlow : 65 ≤ c.toNat := hupper
  omega

/-- What begins with a digit is not the name of an infinity or of no number. -/
theorem readSpecial?_digit (negative : Bool) {c : Char} (hc : c.isDigit = true) (rest : List Char) :
    readSpecial? negative (c :: rest) = none := by
  have hi : c ≠ 'i' := by rintro rfl; cases hc
  have hn : c ≠ 'n' := by rintro rfl; cases hc
  have hs : c ≠ 's' := by rintro rfl; cases hc
  rw [readSpecial?, lowerAscii, List.map_cons, toLower_digit hc]
  split
  all_goals first | rfl | simp_all

theorem readPayload?_natDigits (n : ℕ) : readPayload? (natDigits n) = some n := by
  rw [readPayload?, takeDigits_digits fun _ => isDigit_of_mem_natDigits]
  simp only [digitsValue_natDigits]

/-- A payload is read as it is written. -/
theorem readPayload?_payload (n : ℕ) :
    readPayload? (lowerAscii (if n = 0 then [] else natDigits n)) = some n := by
  have hlower : ∀ s : List Char, (∀ c ∈ s, c.isDigit = true) → lowerAscii s = s := by
    intro s hs
    rw [lowerAscii, List.map_congr_left (fun c hc => toLower_digit (hs c hc)), List.map_id']
  split <;> rename_i h
  · rw [h]
    rfl
  · rw [hlower _ fun _ => isDigit_of_mem_natDigits, readPayload?_natDigits]

/-! ## Whole texts -/

/-- The text of a decimal number has no blanks in it. -/
theorem Decimal.printable_of_mem_chars {d : Decimal} {c : Char} (h : c ∈ d.chars) :
    Printable c := by
  have hsign : ∀ negative, ∀ c ∈ signText negative, Printable c := by
    intro negative
    exact printable_of_all (by cases negative <;> decide)
  have hdigits : ∀ n, ∀ c ∈ natDigits n, Printable c := by
    intro n c hc
    exact printable_of_isDigit (isDigit_of_mem_natDigits hc)
  cases d with
  | infinity negative =>
    rcases List.mem_append.1 h with hs | hname
    · exact hsign _ c hs
    · exact printable_of_all (s := "Infinity".toList) (by decide) c hname
  | nan negative signaling payload =>
    rcases List.mem_append.1 h with hfront | hpayload
    · rcases List.mem_append.1 hfront with hs | hname
      · exact hsign _ c hs
      · exact printable_of_all (by cases signaling <;> decide) c hname
    · split at hpayload
      · cases hpayload
      · exact hdigits _ c hpayload
  | finite x =>
    rcases List.mem_append.1 h with hs | hmagnitude
    · exact hsign _ c hs
    · obtain ⟨whole, places, scale, e, htext, hwhole, hplaces, -, hscale, -⟩ := x.magnitudeText_eq
      rw [htext] at hmagnitude
      rcases List.mem_append.1 hmagnitude with hc | hrest
      · exact printable_of_isDigit (hwhole c hc)
      rcases List.mem_append.1 hrest with hfraction | hc
      · rw [fractionText] at hfraction
        split at hfraction
        · cases hfraction
        · rcases List.mem_cons.1 hfraction with rfl | hc
          · decide
          · exact printable_of_isDigit (hplaces c hc)
      · rcases hscale with ⟨rfl, -⟩ | rfl
        · cases hc
        · rw [scaleText] at hc
          rcases List.mem_cons.1 hc with rfl | hc
          · decide
          rcases List.mem_cons.1 hc with rfl | hc
          · split <;> decide
          · exact hdigits _ c hc

theorem Decimal.chars_ne_nil (d : Decimal) : d.chars ≠ [] := by
  cases d with
  | infinity negative => cases negative <;> decide
  | nan negative signaling payload => cases negative <;> cases signaling <;> simp [chars, signText]
  | finite x =>
    obtain ⟨c, rest, htext, -⟩ := x.head?_magnitudeText
    simp [chars, htext]

/-- Plain numerals are read as they are written. -/
theorem readPlainDecimal_chars {d : Decimal} (h : d.Held) : readPlainDecimal d.chars = .ok d := by
  rw [readPlainDecimal]
  cases d with
  | infinity negative => cases negative <;> rfl
  | nan negative signaling payload =>
    have hread : ∀ payload' : List Char, readPayload? (lowerAscii payload') = some payload →
        readSpecial? negative ((if signaling then "sNaN" else "NaN").toList ++ payload') =
          some (.nan negative signaling payload) := by
      intro payload' hpayload
      cases signaling
      · change (readPayload? (lowerAscii payload')).map (Decimal.nan negative false) = _
        rw [hpayload]
        rfl
      · change (readPayload? (lowerAscii payload')).map (Decimal.nan negative true) = _
        rw [hpayload]
        rfl
    have hsplit : splitSign (Decimal.nan negative signaling payload).chars =
        (negative, (if signaling then "sNaN" else "NaN").toList ++
          (if payload = 0 then [] else natDigits payload)) := by
      rw [Decimal.chars, List.append_assoc]
      cases signaling
      · exact splitSign_signText_append negative (by decide) (by decide)
      · exact splitSign_signText_append negative (by decide) (by decide)
    rw [hsplit]
    simp only [hread _ (readPayload?_payload payload)]
  | finite x =>
    obtain ⟨c, rest, htext, hc⟩ := x.head?_magnitudeText
    have hminus : c ≠ '-' := by rintro rfl; cases hc
    have hplus : c ≠ '+' := by rintro rfl; cases hc
    have hsplit : splitSign (Decimal.finite x).chars = (x.negative, x.magnitudeText) := by
      rw [Decimal.chars, htext]
      exact splitSign_signText_append x.negative hminus hplus
    have hspecial : readSpecial? x.negative x.magnitudeText = none := by
      rw [htext]
      exact readSpecial?_digit x.negative hc rest
    rw [hsplit]
    simp only [hspecial, x.readFraction?_magnitudeText]
    exact if_pos h

/-- **Every decimal number is read as it is written**, with its sign, its digits, its scale and its
payload. -/
theorem readDecimal_text {d : Decimal} (h : d.Held) : readDecimal d.text = .ok d := by
  have hprintable : ∀ c ∈ d.chars, Printable c := fun _ => Decimal.printable_of_mem_chars
  have hfilter : d.chars.filter (· ≠ '_') = d.chars :=
    List.filter_eq_self.2 fun c hc => by simpa using (hprintable c hc).ne
  rw [readDecimal, Decimal.text, String.toList_ofList,
    trim_eq_self fun c hc => (hprintable c hc).isBlank, hfilter, map_plainCharacter hprintable,
    readPlainDecimal_chars h]

end MemoryLimit
