import Mathlib
import MemoryLimit.Text.Blank

/-!
# Words of a line

A text without blanks at its ends is left alone by trimming. The words of a text are what stands
between its gaps. The last words of a text are those that stand at its end between blanks, and what
is left over in front of them is again a text without blanks at its ends.

## Main definitions

* `Text.IsGap`, `Text.IsWord` — what a text is made of.
* `Text.IsPair` — a text of exactly two words.

## Main statements

* `Text.trim_eq_self_iff` — the texts that trimming leaves alone.
* `Text.words_eq_pair_iff` — the texts of exactly two words.
* `Text.lastWordsReversed_word` — a word between blanks is taken.
* `Text.lastWords_first` — the piece in front of the last words.
-/
namespace MemoryLimit.Text

/-! ## Trimming -/

theorem dropWhile_eq_self_iff {p : Char → Bool} {s : List Char} :
    s.dropWhile p = s ↔ ∀ c ∈ s.head?, p c = false := by
  cases s with
  | nil => simp
  | cons c rest =>
    by_cases hc : p c = true
    · simp only [List.dropWhile_cons_of_pos hc, List.head?_cons, Option.mem_def, Option.some.injEq,
        forall_eq', hc, Bool.true_eq_false, iff_false]
      intro h
      have := (List.dropWhile_sublist p (l := rest)).length_le
      rw [h, List.length_cons] at this
      omega
    · simp [hc]

/-- What is left when the characters of a class are dropped does not begin with one of them. -/
theorem head?_dropWhile (p : Char → Bool) (s : List Char) :
    ∀ c ∈ (s.dropWhile p).head?, p c = false := by
  intro c hc
  have := List.head?_dropWhile_not p s
  rw [Option.mem_def] at hc
  rw [hc] at this
  simpa using this

/-- **Trimming leaves a text alone** if and only if there are no blanks at its ends. -/
theorem trim_eq_self_iff {s : List Char} :
    trim s = s ↔ (∀ c ∈ s.head?, isBlank c = false) ∧ ∀ c ∈ s.getLast?, isBlank c = false := by
  have hlast : trimRight isBlank s = s ↔ ∀ c ∈ s.getLast?, isBlank c = false := by
    rw [trimRight, List.reverse_eq_iff, dropWhile_eq_self_iff, List.head?_reverse]
  have hhead : trimLeft isBlank s = s ↔ ∀ c ∈ s.head?, isBlank c = false :=
    dropWhile_eq_self_iff
  rw [← hhead, ← hlast, trim, trimOf]
  constructor
  · intro h
    -- neither end can lose anything, because the text keeps its length
    have hle₁ := (List.dropWhile_sublist isBlank (l := (trimLeft isBlank s).reverse)).length_le
    have hle₂ := (List.dropWhile_sublist isBlank (l := s)).length_le
    have hlength := congrArg List.length h
    rw [trimRight, List.length_reverse] at hlength
    rw [List.length_reverse] at hle₁
    have hleft : trimLeft isBlank s = s :=
      (List.dropWhile_sublist isBlank).eq_of_length (le_antisymm hle₂ (by
        rw [trimLeft] at hle₁ hlength
        omega))
    exact ⟨hleft, by rwa [hleft] at h⟩
  · rintro ⟨hleft, hright⟩
    rw [hleft, hright]

theorem trim_eq_self {s : List Char} (h : ∀ c ∈ s, isBlank c = false) : trim s = s :=
  trim_eq_self_iff.2 ⟨fun c hc => h c (List.mem_of_mem_head? hc), fun c hc =>
    h c (List.mem_of_mem_getLast? hc)⟩

theorem trimRight_isPrefix (p : Char → Bool) (s : List Char) : trimRight p s <+: s := by
  rw [← List.reverse_suffix, trimRight, List.reverse_reverse]
  exact List.dropWhile_suffix p

theorem mem_of_mem_trim {s : List Char} {c : Char} (h : c ∈ trim s) : c ∈ s :=
  (List.dropWhile_sublist isBlank).subset ((trimRight_isPrefix isBlank _).subset h)

/-- A trimmed text begins as the text does behind its blanks. -/
theorem head?_trim {s : List Char} (h : trim s ≠ []) :
    (trim s).head? = (trimLeft isBlank s).head? := by
  obtain ⟨after, hafter⟩ := trimRight_isPrefix isBlank (trimLeft isBlank s)
  rw [← hafter]
  exact (List.head?_append_of_ne_nil _ h).symm

/-- A trimmed text does not end with a blank. -/
theorem getLast?_trim (s : List Char) : ∀ c ∈ (trim s).getLast?, isBlank c = false := by
  rw [trim, trimOf, trimRight, List.getLast?_reverse]
  exact head?_dropWhile isBlank _

/-! ## Words from the beginning -/

/-- A run of blanks, which may be empty. -/
def IsGap (s : List Char) : Prop :=
  ∀ c ∈ s, isBlank c = true

/-- A run of characters that are no blanks. -/
structure IsWord (s : List Char) : Prop where
  ne_nil : s ≠ []
  not_isBlank : ∀ c ∈ s, isBlank c = false

variable {s word : List Char}

theorem IsWord.not_isBlank_head (hword : IsWord word) (rest : List Char) :
    ∃ c ∈ (word ++ rest).head?, isBlank c = false := by
  obtain ⟨c, more, rfl⟩ := List.exists_cons_of_ne_nil hword.ne_nil
  exact ⟨c, by simp, hword.not_isBlank c (by simp)⟩

theorem words_gap_append {gap : List Char} (hgap : IsGap gap) (rest : List Char) :
    words (gap ++ rest) = words rest := by
  induction gap with
  | nil => rfl
  | cons c gap ih =>
    rw [List.cons_append, words_cons_of_isBlank (hgap c (by simp)),
      ih fun d hd => hgap d (List.mem_cons_of_mem c hd)]

/-- A text has no words if and only if it is a gap. -/
theorem words_eq_nil_iff : words s = [] ↔ IsGap s := by
  constructor
  · intro hwords
    induction s with
    | nil => simp [IsGap]
    | cons c s ih =>
      cases hc : isBlank c with
      | true =>
        rw [words_cons_of_isBlank hc] at hwords
        intro d hd
        rcases List.mem_cons.1 hd with rfl | hd
        · exact hc
        · exact ih hwords d hd
      | false =>
        rw [words_cons_of_not_isBlank hc] at hwords
        cases hwords
  · intro hgap
    have hwords := words_gap_append hgap []
    rwa [List.append_nil] at hwords

/-- A word at the front of a text is the first of its words, if a blank or nothing follows it. -/
theorem words_word_append {rest : List Char} (hword : IsWord word)
    (hrest : ∀ c ∈ rest.head?, isBlank c = true) : words (word ++ rest) = word :: words rest := by
  obtain ⟨c, more, rfl⟩ := List.exists_cons_of_ne_nil hword.ne_nil
  have hmore : ∀ d ∈ more, (!isBlank d) = true := by
    intro d hd
    rw [hword.not_isBlank d (List.mem_cons_of_mem c hd)]
    rfl
  have hstop : rest.takeWhile (!isBlank ·) = [] ∧ rest.dropWhile (!isBlank ·) = rest := by
    cases rest with
    | nil => exact ⟨rfl, rfl⟩
    | cons d rest =>
      have hd : isBlank d = true := hrest d (by simp)
      exact ⟨List.takeWhile_cons_of_neg (by simp [hd]), List.dropWhile_cons_of_neg (by simp [hd])⟩
  rw [List.cons_append, words_cons_of_not_isBlank (hword.not_isBlank c (by simp)),
    List.takeWhile_append_of_pos hmore, List.dropWhile_append_of_pos hmore, hstop.1, hstop.2,
    List.append_nil]

/-- The first word of a text stands behind a gap, and a blank or nothing follows it. -/
theorem exists_of_words_eq_cons {others : List (List Char)} (hwords : words s = word :: others) :
    ∃ gap rest, s = gap ++ (word ++ rest) ∧ IsGap gap ∧ IsWord word ∧
      (∀ c ∈ rest.head?, isBlank c = true) ∧ words rest = others := by
  induction s with
  | nil => cases hwords
  | cons c s ih =>
    cases hc : isBlank c with
    | true =>
      rw [words_cons_of_isBlank hc] at hwords
      obtain ⟨gap, rest, rfl, hgap, hword, hrest, hothers⟩ := ih hwords
      refine ⟨c :: gap, rest, rfl, ?_, hword, hrest, hothers⟩
      intro d hd
      rcases List.mem_cons.1 hd with rfl | hd
      · exact hc
      · exact hgap d hd
    | false =>
      rw [words_cons_of_not_isBlank hc, List.cons.injEq] at hwords
      obtain ⟨rfl, hothers⟩ := hwords
      refine ⟨[], s.dropWhile (!isBlank ·), ?_, by simp [IsGap], ⟨by simp, ?_⟩, ?_, hothers⟩
      · rw [List.nil_append, List.cons_append, List.takeWhile_append_dropWhile]
      · intro d hd
        rcases List.mem_cons.1 hd with rfl | hd
        · exact hc
        · simpa using List.mem_takeWhile_imp hd
      · intro d hd
        simpa using head?_dropWhile (!isBlank ·) s d hd

/-- A text of exactly two words: they stand between gaps, and the gap between them is not empty. -/
inductive IsPair (first second : List Char) : List Char → Prop
  | intro {before between after : List Char} (hbefore : IsGap before) (hfirst : IsWord first)
      (hbetween : IsGap between) (hne : between ≠ []) (hsecond : IsWord second)
      (hafter : IsGap after) :
      IsPair first second (before ++ (first ++ (between ++ (second ++ after))))

/-- **The words of a text are two** if and only if the text consists of these two and gaps. -/
theorem words_eq_pair_iff {first second : List Char} :
    words s = [first, second] ↔ IsPair first second s := by
  constructor
  · intro hwords
    obtain ⟨before, rest, rfl, hbefore, hfirst, hblank, hrest⟩ := exists_of_words_eq_cons hwords
    obtain ⟨between, after, rfl, hbetween, hsecond, -, hafter⟩ := exists_of_words_eq_cons hrest
    refine .intro hbefore hfirst hbetween ?_ hsecond (words_eq_nil_iff.1 hafter)
    -- without a gap the first word would go on
    rintro rfl
    obtain ⟨c, hc, hword⟩ := hsecond.not_isBlank_head after
    rw [hblank c hc] at hword
    cases hword
  · rintro ⟨hbefore, hfirst, hbetween, hne, hsecond, hafter⟩
    rename_i before between after
    have hblank : ∀ c ∈ (between ++ (second ++ after)).head?, isBlank c = true := by
      obtain ⟨d, more, rfl⟩ := List.exists_cons_of_ne_nil hne
      intro c hc
      rw [List.cons_append, List.head?_cons, Option.mem_some_iff] at hc
      exact hc ▸ hbetween d (by simp)
    have hend : ∀ c ∈ after.head?, isBlank c = true := fun c hc =>
      hafter c (List.mem_of_mem_head? hc)
    rw [words_gap_append hbefore, words_word_append hfirst hblank, words_gap_append hbetween,
      words_word_append hsecond hend, words_eq_nil_iff.2 hafter]

/-! ## Words from the end -/

/-- **A word between blanks is taken** from the end of a text, which is given reversed. -/
theorem lastWordsReversed_word {word before : List Char} (hword : ∀ c ∈ word, isBlank c = false)
    (hbefore : ∀ c ∈ before.head?, isBlank c = false) (n : ℕ) (found : List (List Char)) :
    lastWordsReversed (n + 1) (word.reverse ++ ' ' :: before) found =
      lastWordsReversed n before (word :: found) := by
  have hreverse : ∀ c ∈ word.reverse, (!isBlank c) = true := by
    intro c hc
    rw [hword c (List.mem_reverse.1 hc)]
    rfl
  have hspace : isBlank ' ' = true := by decide
  rw [lastWordsReversed]
  · rw [List.takeWhile_append_of_pos hreverse, List.dropWhile_append_of_pos hreverse,
      List.takeWhile_cons_of_neg (by simp [hspace]), List.dropWhile_cons_of_neg (by simp [hspace]),
      List.dropWhile_cons_of_pos hspace, dropWhile_eq_self_iff.2 hbefore, List.append_nil,
      List.reverse_reverse]
  · simp

/-- What is left over in front of the last words is not empty, ends with no blank, and is a part
of the text that goes back to its beginning. -/
theorem lastWordsReversed_first {n : ℕ} {rest first : List Char} {found others : List (List Char)}
    (hrest : ∀ c ∈ rest.head?, isBlank c = false)
    (h : lastWordsReversed n rest found = first :: others)
    (hlength : others.length = found.length + n) :
    first ≠ [] ∧ first.reverse <:+ rest ∧ ∀ c ∈ first.getLast?, isBlank c = false := by
  induction n generalizing rest found with
  | zero =>
    cases rest with
    | nil =>
      rw [lastWordsReversed] at h
      simp [h] at hlength
    | cons c rest =>
      rw [lastWordsReversed, List.cons.injEq] at h
      · obtain ⟨rfl, -⟩ := h
        refine ⟨by simp, by rw [List.reverse_reverse], ?_⟩
        rwa [List.getLast?_reverse]
      · simp
  | succ n ih =>
    cases rest with
    | nil =>
      rw [lastWordsReversed] at h
      simp only [h, List.length_cons] at hlength
      omega
    | cons c rest =>
      rw [lastWordsReversed] at h
      · obtain ⟨hne, hsuffix, hlast⟩ := ih (head?_dropWhile isBlank _) h
          (by rw [hlength, List.length_cons]; omega)
        exact ⟨hne, hsuffix.trans ((List.dropWhile_suffix _).trans (List.dropWhile_suffix _)),
          hlast⟩
      · simp

/-- **The piece in front of the last words** begins as the text does behind its blanks, does not
end with a blank, and has only characters of the text. -/
theorem lastWords_first {n : ℕ} {s first : List Char} {others : List (List Char)}
    (h : lastWords n s = first :: others) (hlength : others.length = n) :
    first ≠ [] ∧ first.head? = (trimLeft isBlank s).head? ∧
      (∀ c ∈ first.getLast?, isBlank c = false) ∧ ∀ c ∈ first, c ∈ s := by
  obtain ⟨hne, hsuffix, hlast⟩ := lastWordsReversed_first
    (by rw [List.head?_reverse]; exact getLast?_trim s) h (by simpa using hlength)
  have hfront : first <+: trim s := by rwa [← List.reverse_suffix]
  obtain ⟨after, hafter⟩ := hfront
  refine ⟨hne, ?_, hlast, fun c hc => mem_of_mem_trim (hafter ▸ List.mem_append_left _ hc)⟩
  rw [← head?_trim (by rw [← hafter]; simp [hne]), ← hafter, List.head?_append_of_ne_nil _ hne]

end MemoryLimit.Text
