import Mathlib
import MemoryLimit.Usage.Line
import MemoryLimit.Proofs.Decimal.Text
import MemoryLimit.Proofs.Numeral.Integer
import MemoryLimit.Proofs.Text.Lines
import MemoryLimit.Proofs.Text.Raw

/-!
# A record is read from its line

The names that a line can begin with are exactly those that are read back: a name that is not
storable is never read from any line, and a line that begins with a storable one is read as the
record that was written. Only a name that is a text can be read at all, because a line is one.

## Main definitions

* `Storable` — what the characters of a name must be.
* `Usage.Held` — the records that can be written and read.
* `usageLine` — a record with any name as a line.

## Main statements

* `readLine_usageLine` — a record with a storable name is read from its line.
* `isStorable_of_readLine`, `isText_of_readLine` — every name that is read is storable, and a text.
-/
namespace MemoryLimit

open Text

/-! ## Names -/

/-- The characters of a name that is read back: no blank at an end, no mark of a comment in
front, no line end, and at least one character. -/
structure Storable (s : List Char) : Prop where
  ne_nil : s ≠ []
  head : ∀ c ∈ s.head?, isBlank c = false ∧ c ≠ '#'
  last : ∀ c ∈ s.getLast?, isBlank c = false
  line : ∀ c ∈ s, isLineEnd c = false

/-- The names that may be stored. -/
theorem isStorable_iff {id : RawText} : isStorable id = true ↔ Storable id.shown := by
  have hcomment : (id.shown.head? != some '#') = true ↔ ∀ c ∈ id.shown.head?, c ≠ '#' := by
    cases id.shown.head? <;> simp
  have htrim : (id.shown == trim id.shown) = true ↔ trim id.shown = id.shown := by
    rw [beq_iff_eq, eq_comm]
  simp only [isStorable, Bool.and_eq_true, hcomment, htrim, trim_eq_self_iff, beq_iff_eq,
    Bool.not_eq_true', List.isEmpty_eq_false_iff]
  constructor
  · rintro ⟨⟨⟨hne, hhead, hlast⟩, hmark⟩, hlines⟩
    exact ⟨hne, fun c hc => ⟨hhead c hc, hmark c hc⟩, hlast,
      (length_splitLines_eq_one_iff hne fun c hc => isLineEnd_eq_false (hlast c hc)).1 hlines⟩
  · rintro ⟨hne, hhead, hlast, hline⟩
    exact ⟨⟨⟨hne, fun c hc => (hhead c hc).1, hlast⟩, fun c hc => (hhead c hc).2⟩,
      (length_splitLines_eq_one_iff hne fun c hc => isLineEnd_eq_false (hlast c hc)).2 hline⟩

/-! ## Lines -/

/-- A record that can be written and read: its integers are not too long, and its decimal
numbers are numbers that there are. -/
structure Usage.Held (usage : Usage) : Prop where
  exitCode : digitCount usage.exitCode.natAbs ≤ maxNumeralDigits
  cpu : usage.cpuSeconds.Held
  wall : usage.wallSeconds.Held
  limit : digitCount usage.limit.natAbs ≤ maxNumeralDigits

/-- A record with a name as a line, whatever the name is. -/
def usageLine (id : RawText) (usage : Usage) : RawText :=
  id ++ RawText.ofString (" " ++ String.intercalate " "
    [integerText usage.exitCode, usage.cpuSeconds.text, usage.wallSeconds.text,
    integerText usage.limit])

variable {id : RawText} {usage : Usage}

/-- The line of a record is a text if the name is one. -/
@[simp] theorem isText_usageLine (id : RawText) (usage : Usage) :
    (usageLine id usage).isText = id.isText := by
  simp [usageLine]

/-- The line of a record is written if the name may be stored. -/
theorem writeLine_eq (h : usage.Held) (id : RawText) :
    writeLine id usage =
      if isStorable id then .ok (usageLine id usage)
      else .error (.storeFormat (.unstorableId id)) := by
  have hfield : ∀ i : ℤ, digitCount i.natAbs ≤ maxNumeralDigits →
      integerField i = .ok (integerText i) :=
    fun i hi => by
      rw [integerField, writeInteger, if_neg (not_lt.2 hi)]
      rfl
  rw [writeLine, hfield _ h.exitCode, hfield _ h.limit]
  rfl

theorem shown_usageLine (id : RawText) (usage : Usage) :
    (usageLine id usage).shown = id.shown ++ ' ' :: ((integerText usage.exitCode).toList ++
      ' ' :: (usage.cpuSeconds.chars ++ ' ' :: (usage.wallSeconds.chars ++
        ' ' :: (integerText usage.limit).toList))) := by
  simp [usageLine, Decimal.text]

/-- The characters of a line end it only if those of the name do. -/
theorem not_isLineEnd_of_mem_usageLine (h : Storable id.shown) (usage : Usage) :
    ∀ c ∈ (usageLine id usage).shown, isLineEnd c = false := by
  have hprintable : ∀ c, Printable c → isLineEnd c = false := by
    intro c hc
    exact isLineEnd_eq_false hc.isBlank
  have hspace : isLineEnd ' ' = false := by decide
  intro c hc
  rw [shown_usageLine] at hc
  simp only [List.mem_append, List.mem_cons] at hc
  rcases hc with hid | rfl | hcode | rfl | hcpu | rfl | hwall | rfl | hlimit
  · exact h.line c hid
  · exact hspace
  · exact hprintable c (printable_of_mem_integerText hcode)
  · exact hspace
  · exact hprintable c (Decimal.printable_of_mem_chars hcpu)
  · exact hspace
  · exact hprintable c (Decimal.printable_of_mem_chars hwall)
  · exact hspace
  · exact hprintable c (printable_of_mem_integerText hlimit)

/-- The line of a record is no comment. -/
theorem isIgnored_usageLine (h : Storable id.shown) (usage : Usage) :
    isIgnored (usageLine id usage).shown = false := by
  obtain ⟨c, rest, hid⟩ := List.exists_cons_of_ne_nil h.ne_nil
  obtain ⟨hblank, hmark⟩ := h.head c (by simp [hid])
  rw [isIgnored, shown_usageLine, hid, List.cons_append, trimLeft,
    List.dropWhile_cons_of_neg (by simp [hblank])]
  simpa using hmark

/-- A field that stands last, or before a blank, does not end with a blank itself. -/
theorem head?_reverse_append {field : List Char} (hne : field ≠ [])
    (hfield : ∀ c ∈ field, Printable c)
    (rest : List Char) : ∀ c ∈ (field.reverse ++ rest).head?, isBlank c = false := by
  intro c hc
  rw [List.head?_append_of_ne_nil _ (by simpa using hne), List.head?_reverse] at hc
  exact (hfield c (List.mem_of_mem_getLast? hc)).isBlank

/-- A line is cut into the name and the four figures. -/
theorem lastWords_usageLine (h : Storable id.shown) (usage : Usage) :
    lastWords 4 (usageLine id usage).shown =
      [id.shown, (integerText usage.exitCode).toList, usage.cpuSeconds.chars, usage.wallSeconds.chars,
        (integerText usage.limit).toList] := by
  have hinteger : ∀ i : ℤ, ∀ c ∈ (integerText i).toList, Printable c := fun _ _ =>
    printable_of_mem_integerText
  have hdecimal : ∀ d : Decimal, ∀ c ∈ d.chars, Printable c := fun _ _ =>
    Decimal.printable_of_mem_chars
  have hreverse : (usageLine id usage).shown.reverse =
      (integerText usage.limit).toList.reverse ++ ' ' :: (usage.wallSeconds.chars.reverse ++
        ' ' :: (usage.cpuSeconds.chars.reverse ++ ' ' :: ((integerText usage.exitCode).toList.reverse ++
          ' ' :: id.shown.reverse))) := by
    simp [shown_usageLine]
  have htrim : trim (usageLine id usage).shown = (usageLine id usage).shown := by
    refine trim_eq_self_iff.2 ⟨fun c hc => ?_, fun c hc => ?_⟩
    · rw [shown_usageLine, List.head?_append_of_ne_nil _ h.ne_nil] at hc
      exact (h.head c hc).1
    · rw [← List.head?_reverse, hreverse] at hc
      exact head?_reverse_append (integerText_ne_nil _) (hinteger _) _ c hc
  rw [lastWords, htrim, hreverse,
    lastWordsReversed_word (fun c hc => (hinteger _ c hc).isBlank)
      (head?_reverse_append (Decimal.chars_ne_nil _) (hdecimal _) _),
    lastWordsReversed_word (fun c hc => (hdecimal _ c hc).isBlank)
      (head?_reverse_append (Decimal.chars_ne_nil _) (hdecimal _) _),
    lastWordsReversed_word (fun c hc => (hdecimal _ c hc).isBlank)
      (head?_reverse_append (integerText_ne_nil _) (hinteger _) _),
    lastWordsReversed_word (fun c hc => (hinteger _ c hc).isBlank)
      (by rw [List.head?_reverse]; exact h.last)]
  rw [lastWordsReversed, List.reverse_reverse]
  simpa using h.ne_nil

/-- **A record with a storable name is read from its line.** -/
theorem readLine_usageLine (hid : Storable id.shown) (htext : id.isText = true) (h : usage.Held) :
    readLine (usageLine id usage).string = .ok (id, usage) := by
  have hfigures : readFigures (integerText usage.exitCode).toList usage.cpuSeconds.chars
      usage.wallSeconds.chars (integerText usage.limit).toList = .ok usage := by
    rw [readFigures, String.ofList_toList, String.ofList_toList, readInteger_integerText h.exitCode,
      readInteger_integerText h.limit, ← Decimal.text, ← Decimal.text, readDecimal_text h.cpu,
      readDecimal_text h.wall]
    rfl
  rw [readLine, RawText.string, String.toList_ofList, lastWords_usageLine hid]
  simp only [hfigures]
  rw [← RawText.string, RawText.ofString_string htext]

/-- **Every name that is read from a line is storable**, if the line is a line and no comment. -/
theorem isStorable_of_readLine {line : List Char} (hline : ∀ c ∈ line, isLineEnd c = false)
    (hrecord : isIgnored line = false) (h : readLine (String.ofList line) = .ok (id, usage)) :
    isStorable id = true := by
  rw [readLine, String.toList_ofList] at h
  split at h
  · rename_i first exitCode cpu wall limit hwords
    obtain ⟨hne, hhead, hlast, hmem⟩ := lastWords_first hwords rfl
    split at h
    · cases h
      rw [isStorable_iff, RawText.shown_ofString, String.toList_ofList]
      refine ⟨hne, fun c hc => ?_, hlast, fun c hc => hline c (hmem c hc)⟩
      rw [hhead] at hc
      refine ⟨head?_dropWhile isBlank _ c hc, ?_⟩
      rintro rfl
      rw [isIgnored] at hrecord
      split at hrecord
      · cases hrecord
      · rename_i c rest heq
        rw [heq] at hc
        cases hc
        cases hrecord
    · cases h
  · cases h

/-- Every name that is read from a line is a text, because the line is one. -/
theorem isText_of_readLine {line : String} (h : readLine line = .ok (id, usage)) :
    id.isText = true := by
  rw [readLine] at h
  split at h
  · split at h
    · cases h
      exact RawText.isText_ofString _
    · cases h
  · cases h

end MemoryLimit
