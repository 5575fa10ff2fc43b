import Mathlib
import MemoryLimit.Size
import MemoryLimit.Proofs.Text.Words

/-!
# How a memory size is written

A size is digits with an optional fraction, then an optional unit letter, an optional binary mark and
an optional byte mark, with blanks around the number and behind the letters. The classes of these
characters have none in common, so a text is a size in one way only, and what is read from it is what
its pieces say.

## Main definitions

* `SizeSpelling` — the pieces of a size.
* `SizeSpelling.text` — the text that they make up.
* `SizeSpelling.fraction`, `SizeSpelling.power` — the number and the power of 1024 that it stands
  before.

## Main statements

* `sizeParts?_eq_some_iff` — the texts that are sizes, and what they denote.
-/
namespace MemoryLimit

open Text

/-! ## Classes of characters -/

/-- The letters of units: those that have a power, and the Kelvin sign, which has none. -/
def isUnitLetter (c : Char) : Bool :=
  (unitPower? c).isSome || c = kelvinSign

theorem isUnitLetter_cases {c : Char} (h : isUnitLetter c = true) :
    c = 'K' ∨ c = 'k' ∨ c = 'M' ∨ c = 'm' ∨ c = 'G' ∨ c = 'g' ∨ c = 'T' ∨ c = 't' ∨
      c = kelvinSign := by
  rw [isUnitLetter, Bool.or_eq_true, decide_eq_true_eq] at h
  fun_cases unitPower? c <;> simp_all [unitPower?]

/-- Blanks are neither digits nor points nor any of the letters. -/
theorem isBlank_spec {c : Char} (h : isBlank c = true) :
    isDecimalDigit c = false ∧ c ≠ '.' ∧ isUnitLetter c = false ∧ isBinaryMark c = false ∧
      isByteMark c = false := by
  have hmem : c.toNat ∈ [9, 10, 11, 12, 13, 28, 29, 30, 31, 32, 0x85, 0xa0, 0x1680, 0x2000, 0x2001,
      0x2002, 0x2003, 0x2004, 0x2005, 0x2006, 0x2007, 0x2008, 0x2009, 0x200a, 0x2028, 0x2029, 0x202f,
      0x205f, 0x3000] := by
    simp only [isBlank, Bool.or_eq_true, Bool.and_eq_true, decide_eq_true_eq, beq_iff_eq] at h
    simp only [List.mem_cons, List.not_mem_nil, or_false]
    omega
  rw [← Char.ofNat_toNat c]
  generalize c.toNat = n at hmem
  revert n
  decide +kernel

theorem isUnitLetter_spec {c : Char} (h : isUnitLetter c = true) :
    isBlank c = false ∧ isDecimalDigit c = false ∧ c ≠ '.' := by
  rcases isUnitLetter_cases h with rfl | rfl | rfl | rfl | rfl | rfl | rfl | rfl | rfl <;> decide

theorem isBinaryMark_spec {c : Char} (h : isBinaryMark c = true) :
    isBlank c = false ∧ isDecimalDigit c = false ∧ c ≠ '.' ∧ isUnitLetter c = false := by
  simp only [isBinaryMark, Bool.or_eq_true, decide_eq_true_eq, or_assoc] at h
  rcases h with rfl | rfl | rfl | rfl <;> decide

theorem isByteMark_spec {c : Char} (h : isByteMark c = true) :
    isBlank c = false ∧ isDecimalDigit c = false ∧ c ≠ '.' ∧ isUnitLetter c = false ∧
      isBinaryMark c = false := by
  simp only [isByteMark, Bool.or_eq_true, decide_eq_true_eq] at h
  rcases h with rfl | rfl <;> decide

/-! ## Numbers -/

/-- The values of digits of any script. -/
def scriptValues (s : List Char) : List ℕ :=
  s.filterMap digitValue?

theorem length_scriptValues {s : List Char} (h : ∀ c ∈ s, isDecimalDigit c = true) :
    (scriptValues s).length = s.length := by
  induction s with
  | nil => rfl
  | cons c rest ih =>
    obtain ⟨v, hv⟩ := Option.isSome_iff_exists.1 (h c List.mem_cons_self)
    have hrest := ih fun d hd => h d (List.mem_cons_of_mem c hd)
    rw [scriptValues, List.filterMap_cons_some hv, List.length_cons, List.length_cons, ← hrest]
    rfl

theorem scriptValues_isEmpty {s : List Char} (h : ∀ c ∈ s, isDecimalDigit c = true) :
    (scriptValues s).isEmpty = s.isEmpty := by
  rw [Bool.eq_iff_iff, List.isEmpty_iff_length_eq_zero, List.isEmpty_iff_length_eq_zero,
    length_scriptValues h]

theorem scriptValues_append (s t : List Char) :
    scriptValues (s ++ t) = scriptValues s ++ scriptValues t :=
  List.filterMap_append

/-- A run of digits is taken up to the first character that is no digit. -/
theorem takeScriptDigits_append {digits rest : List Char}
    (hdigits : ∀ c ∈ digits, isDecimalDigit c = true)
    (hrest : ∀ c ∈ rest.head?, isDecimalDigit c = false) :
    takeScriptDigits (digits ++ rest) = (scriptValues digits, rest) := by
  have hstop : rest.takeWhile isDecimalDigit = [] := by
    cases rest with
    | nil => rfl
    | cons c rest => exact List.takeWhile_cons_of_neg (by simp [hrest c rfl])
  rw [takeScriptDigits, List.takeWhile_append_of_pos hdigits, List.dropWhile_append_of_pos hdigits,
    hstop, dropWhile_eq_self_iff.2 hrest, List.append_nil]
  rfl

/-- What is taken is a run of digits, and what is left does not begin with one. -/
theorem takeScriptDigits_spec (s : List Char) :
    ∃ digits rest, s = digits ++ rest ∧ (∀ c ∈ digits, isDecimalDigit c = true) ∧
      takeScriptDigits s = (scriptValues digits, rest) :=
  ⟨s.takeWhile isDecimalDigit, s.dropWhile isDecimalDigit, List.takeWhile_append_dropWhile.symm,
    fun _ hc => List.mem_takeWhile_imp hc, rfl⟩

/-- The places of a fraction with the point in front of them; without places there is no point. -/
def pointed : List Char → List Char
  | [] => []
  | c :: places => '.' :: c :: places

/-- The number that digits before and behind a point denote. -/
def fractionOf (whole places : List Char) : DecimalFraction :=
  ⟨digitsValue (scriptValues (whole ++ places)), -(places.length : ℤ)⟩

theorem takeFraction?_append {whole places rest : List Char} (hne : whole ≠ [])
    (hwhole : ∀ c ∈ whole, isDecimalDigit c = true)
    (hplaces : ∀ c ∈ places, isDecimalDigit c = true)
    (hrest : ∀ c ∈ rest.head?, isDecimalDigit c = false ∧ c ≠ '.') :
    takeFraction? (whole ++ pointed places ++ rest) = some (fractionOf whole places, rest) := by
  have hwholeEmpty : (scriptValues whole).isEmpty = false := by
    rw [scriptValues_isEmpty hwhole, List.isEmpty_eq_false_iff]
    exact hne
  rw [List.append_assoc]
  cases places with
  | nil =>
    have htake := takeScriptDigits_append hwhole fun c hc => (hrest c hc).1
    simp only [takeFraction?, pointed, List.nil_append, htake, hwholeEmpty]
    cases rest with
    | nil => simp [fractionOf]
    | cons c rest => simp [fractionOf, (hrest c rfl).2]
  | cons place places =>
    have hpoint : ∀ c ∈ ('.' :: (place :: places ++ rest)).head?, isDecimalDigit c = false := by
      simp only [List.head?_cons, Option.mem_def, Option.some.injEq, forall_eq']
      decide
    have htake := takeScriptDigits_append hwhole hpoint
    have htakePlaces := takeScriptDigits_append hplaces fun c hc => (hrest c hc).1
    have hplacesEmpty : (scriptValues (place :: places)).isEmpty = false := by
      rw [scriptValues_isEmpty hplaces, List.isEmpty_cons]
    rw [pointed, List.cons_append, takeFraction?]
    simp only [htake, hwholeEmpty, htakePlaces, hplacesEmpty, Bool.false_eq_true, if_false]
    rw [fractionOf, scriptValues_append, length_scriptValues hplaces]

theorem takeFraction?_spec {s rest : List Char} {fraction : DecimalFraction}
    (h : takeFraction? s = some (fraction, rest)) :
    ∃ whole places, s = whole ++ pointed places ++ rest ∧ whole ≠ [] ∧
      (∀ c ∈ whole, isDecimalDigit c = true) ∧ (∀ c ∈ places, isDecimalDigit c = true) ∧
      fraction = fractionOf whole places := by
  obtain ⟨whole, afterWhole, rfl, hwhole, htake⟩ := takeScriptDigits_spec s
  simp only [takeFraction?, htake, scriptValues_isEmpty hwhole] at h
  split at h
  · cases h
  rename_i hne
  have hne : whole ≠ [] := by simpa using hne
  have hbare : fractionOf whole [] = ⟨digitsValue (scriptValues whole), 0⟩ := by
    simp [fractionOf]
  split at h
  · rename_i behind
    obtain ⟨places, afterPlaces, rfl, hplaces, htakePlaces⟩ := takeScriptDigits_spec behind
    simp only [htakePlaces, scriptValues_isEmpty hplaces] at h
    cases places with
    | nil =>
      simp only [List.isEmpty_nil, if_true, Option.some.injEq, Prod.mk.injEq] at h
      obtain ⟨rfl, rfl⟩ := h
      exact ⟨whole, [], by simp [pointed], hne, hwhole, by simp, hbare.symm⟩
    | cons place places =>
      simp only [List.isEmpty_cons, Bool.false_eq_true, if_false, Option.some.injEq,
        Prod.mk.injEq] at h
      obtain ⟨rfl, rfl⟩ := h
      refine ⟨whole, place :: places, by simp [pointed], hne, hwhole, hplaces, ?_⟩
      rw [fractionOf, scriptValues_append, length_scriptValues hplaces]
  · simp only [Option.some.injEq, Prod.mk.injEq] at h
    obtain ⟨rfl, rfl⟩ := h
    exact ⟨whole, [], by simp [pointed], hne, hwhole, by simp, hbare.symm⟩

/-! ## Letters -/

theorem dropOptional_append {p : Char → Bool} {o : Option Char} {rest : List Char}
    (ho : ∀ c ∈ o, p c = true) (hrest : ∀ c ∈ rest.head?, p c = false) :
    dropOptional p (o.toList ++ rest) = rest := by
  cases o with
  | some c => simp [dropOptional, ho c rfl]
  | none =>
    cases rest with
    | nil => rfl
    | cons c rest => simp [dropOptional, hrest c rfl]

theorem dropOptional_spec (p : Char → Bool) (s : List Char) :
    ∃ o : Option Char, (∀ c ∈ o, p c = true) ∧ s = o.toList ++ dropOptional p s := by
  cases s with
  | nil => exact ⟨none, by simp, rfl⟩
  | cons c rest =>
    by_cases hc : p c = true
    · exact ⟨some c, by simpa using hc, by simp [dropOptional, hc]⟩
    · exact ⟨none, by simp, by simp [dropOptional, hc]⟩

/-- A unit letter is taken as any other optional letter is dropped. -/
theorem takeUnit_append {o : Option Char} {rest : List Char}
    (ho : ∀ c ∈ o, isUnitLetter c = true) (hrest : ∀ c ∈ rest.head?, isUnitLetter c = false) :
    takeUnit (o.toList ++ rest) = (o, rest) := by
  cases o with
  | some c =>
    have hc := ho c rfl
    rw [isUnitLetter] at hc
    simp [takeUnit, hc]
  | none =>
    cases rest with
    | nil => rfl
    | cons c rest =>
      have hc := hrest c rfl
      rw [isUnitLetter] at hc
      simp [takeUnit, hc]

theorem takeUnit_spec (s : List Char) :
    (∀ c ∈ (takeUnit s).1, isUnitLetter c = true) ∧ s = (takeUnit s).1.toList ++ (takeUnit s).2 := by
  cases s with
  | nil => simp [takeUnit]
  | cons c rest =>
    rw [takeUnit]
    split
    · rename_i hc
      exact ⟨by simpa [isUnitLetter] using hc, rfl⟩
    · exact ⟨by simp, rfl⟩

/-! ## Sizes -/

/-- The pieces of a memory size. -/
structure SizeSpelling where
  /-- The blanks before the number. -/
  lead : List Char
  /-- The digits before the point. -/
  whole : List Char
  /-- The digits behind the point. -/
  places : List Char
  /-- The blanks behind the number. -/
  gap : List Char
  unit : Option Char
  binary : Option Char
  byte : Option Char
  /-- The blanks at the end. -/
  trail : List Char
  lead_blank : ∀ c ∈ lead, isBlank c = true
  whole_ne_nil : whole ≠ []
  whole_digits : ∀ c ∈ whole, isDecimalDigit c = true
  places_digits : ∀ c ∈ places, isDecimalDigit c = true
  gap_blank : ∀ c ∈ gap, isBlank c = true
  unit_letter : ∀ c ∈ unit, isUnitLetter c = true
  binary_mark : ∀ c ∈ binary, isBinaryMark c = true
  byte_mark : ∀ c ∈ byte, isByteMark c = true
  trail_blank : ∀ c ∈ trail, isBlank c = true

namespace SizeSpelling

variable (t : SizeSpelling)

/-- What stands behind the number and its blanks. -/
def ending : List Char :=
  t.unit.toList ++ (t.binary.toList ++ (t.byte.toList ++ t.trail))

/-- The text that the pieces make up. -/
def text : String :=
  String.ofList (t.lead ++ (t.whole ++ pointed t.places ++ (t.gap ++ t.ending)))

/-- The number in front of the unit. -/
def fraction : DecimalFraction :=
  fractionOf t.whole t.places

/-- The power of 1024 that the unit stands for; the Kelvin sign stands for none. -/
def power : ℕ :=
  (t.unit.bind unitPower?).getD 0

theorem mem_head?_toList_append {o : Option Char} {rest : List Char} {c : Char}
    (h : c ∈ (o.toList ++ rest).head?) : c ∈ o ∨ c ∈ rest.head? := by
  cases o with
  | none => exact .inr h
  | some d => exact .inl h

theorem trail_head : ∀ c ∈ t.trail.head?, isBlank c = true :=
  fun c hc => t.trail_blank c (List.mem_of_mem_head? hc)

/-- The letters begin with none of the characters that come before them. -/
theorem ending_head : ∀ c ∈ t.ending.head?,
    isBlank c = true ∨ isDecimalDigit c = false ∧ c ≠ '.' ∧ isBlank c = false := by
  intro c hc
  rcases mem_head?_toList_append hc with hunit | hc
  · have hletter := isUnitLetter_spec (t.unit_letter c hunit)
    exact .inr ⟨hletter.2.1, hletter.2.2, hletter.1⟩
  rcases mem_head?_toList_append hc with hbinary | hc
  · have hletter := isBinaryMark_spec (t.binary_mark c hbinary)
    exact .inr ⟨hletter.2.1, hletter.2.2.1, hletter.1⟩
  rcases mem_head?_toList_append hc with hbyte | hc
  · have hletter := isByteMark_spec (t.byte_mark c hbyte)
    exact .inr ⟨hletter.2.1, hletter.2.2.1, hletter.1⟩
  · exact .inl (t.trail_head c hc)

/-- The number ends where its pieces end. -/
theorem gap_append_ending_head :
    ∀ c ∈ (t.gap ++ t.ending).head?, isDecimalDigit c = false ∧ c ≠ '.' := by
  have hblank : ∀ c, isBlank c = true → isDecimalDigit c = false ∧ c ≠ '.' :=
    fun c hc => ⟨(isBlank_spec hc).1, (isBlank_spec hc).2.1⟩
  intro c hc
  cases hgap : t.gap with
  | nil =>
    rw [hgap] at hc
    rcases t.ending_head c hc with htrail | hletter
    · exact hblank c htrail
    · exact ⟨hletter.1, hletter.2.1⟩
  | cons d rest =>
    rw [hgap, List.cons_append, List.head?_cons, Option.mem_def, Option.some.injEq] at hc
    subst hc
    exact hblank _ (t.gap_blank _ (by rw [hgap]; exact List.mem_cons_self))

/-- Dropping the blanks behind the number leaves the letters, and may leave no blanks behind them. -/
theorem trimLeft_ending : ∃ trail, (∀ c ∈ trail, isBlank c = true) ∧
    trimLeft isBlank t.ending = t.unit.toList ++ (t.binary.toList ++ (t.byte.toList ++ trail)) := by
  by_cases hhead : ∀ c ∈ t.ending.head?, isBlank c = false
  · exact ⟨t.trail, t.trail_blank, dropWhile_eq_self_iff.2 hhead⟩
  -- a text that begins with a blank has no letters
  · have hblank : ∀ o : Option Char, (∀ c ∈ o, isBlank c = false) → ∀ rest : List Char,
        (¬ ∀ c ∈ (o.toList ++ rest).head?, isBlank c = false) → o = none := by
      intro o ho rest hrest
      cases o with
      | none => rfl
      | some c => exact absurd (by simpa using ho) hrest
    have hunit := hblank t.unit (fun c hc => (isUnitLetter_spec (t.unit_letter c hc)).1) _ hhead
    rw [ending, hunit] at hhead
    have hbinary := hblank t.binary (fun c hc => (isBinaryMark_spec (t.binary_mark c hc)).1) _ hhead
    rw [hbinary] at hhead
    have hbyte := hblank t.byte (fun c hc => (isByteMark_spec (t.byte_mark c hc)).1) _ hhead
    refine ⟨[], by simp, ?_⟩
    rw [ending, hunit, hbinary, hbyte]
    exact List.dropWhile_eq_nil_iff.2 t.trail_blank

end SizeSpelling

/-- What is read from a size is what its pieces say. -/
theorem sizeParts?_text (t : SizeSpelling) :
    sizeParts? t.text.toList = some (t.fraction, t.unit) := by
  obtain ⟨trail, htrail, hending⟩ := t.trimLeft_ending
  have htrailHead : ∀ c ∈ trail.head?, isBlank c = true :=
    fun c hc => htrail c (List.mem_of_mem_head? hc)
  have hbyteHead : ∀ c ∈ (t.byte.toList ++ trail).head?,
      isUnitLetter c = false ∧ isBinaryMark c = false := by
    intro c hc
    rcases SizeSpelling.mem_head?_toList_append hc with hbyte | hc
    · exact (isByteMark_spec (t.byte_mark c hbyte)).2.2.2
    · have hspec := isBlank_spec (htrailHead c hc)
      exact ⟨hspec.2.2.1, hspec.2.2.2.1⟩
  have hbinaryHead : ∀ c ∈ (t.binary.toList ++ (t.byte.toList ++ trail)).head?,
      isUnitLetter c = false := by
    intro c hc
    rcases SizeSpelling.mem_head?_toList_append hc with hbinary | hc
    · exact (isBinaryMark_spec (t.binary_mark c hbinary)).2.2.2
    · exact (hbyteHead c hc).1
  have hlead : trimLeft isBlank t.text.toList =
      t.whole ++ pointed t.places ++ (t.gap ++ t.ending) := by
    rw [SizeSpelling.text, String.toList_ofList, trimLeft,
      List.dropWhile_append_of_pos t.lead_blank, dropWhile_eq_self_iff]
    intro c hc
    rw [List.append_assoc, List.head?_append_of_ne_nil _ t.whole_ne_nil] at hc
    have hdigit := t.whole_digits c (List.mem_of_mem_head? hc)
    by_contra hblank
    rw [Bool.not_eq_false] at hblank
    rw [(isBlank_spec hblank).1] at hdigit
    cases hdigit
  have hgap : trimLeft isBlank (t.gap ++ t.ending) = trimLeft isBlank t.ending :=
    List.dropWhile_append_of_pos t.gap_blank
  have hend : trimLeft isBlank trail = [] := List.dropWhile_eq_nil_iff.2 htrail
  rw [sizeParts?, hlead, takeFraction?_append t.whole_ne_nil t.whole_digits t.places_digits
    t.gap_append_ending_head, Option.bind_eq_bind, Option.bind_some]
  simp only [hgap, hending, takeUnit_append t.unit_letter hbinaryHead,
    dropOptional_append t.binary_mark fun c hc => (hbyteHead c hc).2,
    dropOptional_append t.byte_mark fun c hc => (isBlank_spec (htrailHead c hc)).2.2.2.2, hend,
    List.isEmpty_nil, if_true]
  rfl

/-- **The texts that are sizes** are those that have a spelling, which says what they denote. -/
theorem sizeParts?_eq_some_iff {s : String} {fraction : DecimalFraction} {unit : Option Char} :
    sizeParts? s.toList = some (fraction, unit) ↔
      ∃ t : SizeSpelling, t.text = s ∧ t.fraction = fraction ∧ t.unit = unit := by
  constructor
  · intro h
    rw [sizeParts?] at h
    obtain ⟨⟨number, rest⟩, hnumber, h⟩ := Option.bind_eq_some_iff.1 h
    obtain ⟨whole, places, hs, hne, hwhole, hplaces, rfl⟩ := takeFraction?_spec hnumber
    obtain ⟨hunit, hletters⟩ := takeUnit_spec (trimLeft isBlank rest)
    obtain ⟨binary, hbinary, hmarks⟩ :=
      dropOptional_spec isBinaryMark (takeUnit (trimLeft isBlank rest)).2
    obtain ⟨byte, hbyte, htrail⟩ :=
      dropOptional_spec isByteMark (dropOptional isBinaryMark (takeUnit (trimLeft isBlank rest)).2)
    simp only [Option.ite_none_right_eq_some, Option.some.injEq, Prod.mk.injEq,
      List.isEmpty_iff] at h
    obtain ⟨hblank, rfl, rfl⟩ := h
    refine ⟨⟨s.toList.takeWhile isBlank, whole, places, rest.takeWhile isBlank, _, binary, byte, _,
      fun _ hc => List.mem_takeWhile_imp hc, hne, hwhole, hplaces,
      fun _ hc => List.mem_takeWhile_imp hc, hunit, hbinary, hbyte,
      List.dropWhile_eq_nil_iff.1 hblank⟩, ?_, rfl, rfl⟩
    rw [SizeSpelling.text, SizeSpelling.ending, ← htrail, ← hmarks, ← hletters]
    have hbehind : rest.takeWhile isBlank ++ trimLeft isBlank rest = rest :=
      List.takeWhile_append_dropWhile
    have hwholeText : s.toList.takeWhile isBlank ++ trimLeft isBlank s.toList = s.toList :=
      List.takeWhile_append_dropWhile
    change String.ofList (s.toList.takeWhile isBlank ++
      (whole ++ pointed places ++ (rest.takeWhile isBlank ++ trimLeft isBlank rest))) = s
    rw [hbehind, ← hs, hwholeText, String.ofList_toList]
  · intro h
    obtain ⟨t, rfl, rfl, rfl⟩ := h
    exact sizeParts?_text t

end MemoryLimit
