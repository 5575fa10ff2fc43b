import Mathlib
import MemoryLimit.Text.Blank
import MemoryLimit.Text.Line

/-!
# Lines of a text

Lines without line ends, each ended by a line feed, are split back into the same lines. The
pieces that a text is split into have no line ends, and a text that does not end with one is a
single line only if it has none.

## Main statements

* `Text.splitLines_lines` — lines that are ended are split back.
* `Text.not_isLineEnd_of_mem_splitLines` — a line has no line end in it.
* `Text.length_splitLines_eq_one_iff` — the texts that are one line.
* `Text.splitLines_foldReturns` — a text has the same lines when its carriage returns are folded.
-/
namespace MemoryLimit.Text

/-- Every character that ends a line is a blank. -/
theorem isBlank_of_isLineEnd {c : Char} (h : isLineEnd c = true) : isBlank c = true := by
  simp only [isLineEnd, isBlank, Bool.or_eq_true, Bool.and_eq_true, decide_eq_true_eq,
    beq_iff_eq] at h ⊢
  omega

theorem isLineEnd_eq_false {c : Char} (h : isBlank c = false) : isLineEnd c = false := by
  rw [← Bool.not_eq_true]
  intro hc
  simp [isBlank_of_isLineEnd hc] at h

variable {line s : List Char}

/-! ## Splitting -/

/-- Characters that end no line are added to the line. -/
theorem splitLinesFrom_append (h : ∀ c ∈ line, isLineEnd c = false) (rest before : List Char) :
    splitLinesFrom (line ++ rest) before = splitLinesFrom rest (line.reverse ++ before) := by
  induction line generalizing before with
  | nil => rfl
  | cons c line ih =>
    have hc := h c (by simp)
    have hreturn : c ≠ '\r' := by rintro rfl; exact absurd hc (by decide)
    rw [List.cons_append, splitLinesFrom, if_neg (by simp [hc]),
      ih (fun x hx => h x (by simp [hx]))]
    · simp
    · intro _ hr
      exact absurd hr hreturn

/-- A text without line ends is one line. -/
theorem splitLines_line (h : ∀ c ∈ line, isLineEnd c = false) (hne : line ≠ []) :
    splitLines line = [line] := by
  have hsplit := splitLinesFrom_append h [] []
  rw [List.append_nil, List.append_nil] at hsplit
  rw [splitLines, hsplit, splitLinesFrom, List.reverse_reverse]
  simpa using hne

/-- A line that is ended is split off. -/
theorem splitLines_append (h : ∀ c ∈ line, isLineEnd c = false) (rest : List Char) :
    splitLines (line ++ '\n' :: rest) = line :: splitLines rest := by
  rw [splitLines, splitLinesFrom_append h, List.append_nil, splitLinesFrom, if_pos (by decide),
    List.reverse_reverse, splitLines]
  intro _ hr
  exact absurd hr (by decide)

/-- **Lines that are ended are split back into the same lines.** -/
theorem splitLines_lines {lines : List (List Char)}
    (h : ∀ line ∈ lines, ∀ c ∈ line, isLineEnd c = false) :
    splitLines (lines.flatMap (· ++ ['\n'])) = lines := by
  induction lines with
  | nil => rfl
  | cons line lines ih =>
    rw [List.flatMap_cons, List.append_assoc, List.singleton_append,
      splitLines_append (h line (by simp)), ih (fun other hother => h other (by simp [hother]))]

/-- **A line has no line end in it.** -/
theorem not_isLineEnd_of_mem_splitLinesFrom (s before : List Char)
    (hbefore : ∀ c ∈ before, isLineEnd c = false) :
    ∀ line ∈ splitLinesFrom s before, ∀ c ∈ line, isLineEnd c = false := by
  fun_induction splitLinesFrom s before with
  | case1 => simp
  | case2 before hne => simpa using hbefore
  | case3 rest before ih =>
    intro line hline
    rcases List.mem_cons.1 hline with rfl | hline
    · simpa using hbefore
    · exact ih (by simp) line hline
  | case4 c rest before _ hc ih =>
    intro line hline
    rcases List.mem_cons.1 hline with rfl | hline
    · simpa using hbefore
    · exact ih (by simp) line hline
  | case5 c rest before _ hc ih =>
    refine ih fun x hx => ?_
    rcases List.mem_cons.1 hx with rfl | hx
    · simpa using hc
    · exact hbefore x hx

theorem not_isLineEnd_of_mem_splitLines (h : line ∈ splitLines s) :
    ∀ c ∈ line, isLineEnd c = false :=
  not_isLineEnd_of_mem_splitLinesFrom s [] (by simp) line h

theorem splitLinesFrom_ne_nil (s before : List Char) (h : s ≠ [] ∨ before ≠ []) :
    splitLinesFrom s before ≠ [] := by
  fun_induction splitLinesFrom s before with
  | case1 => simp at h
  | case2 => simp
  | case3 => simp
  | case4 => simp
  | case5 _ _ _ _ _ ih => exact ih (.inr (by simp))

/-- A line end inside a text makes at least two lines of it. -/
theorem two_le_length_splitLinesFrom (s before : List Char) (hend : ∃ c ∈ s, isLineEnd c = true)
    (hlast : ∀ c ∈ s.getLast?, isLineEnd c = false) : 2 ≤ (splitLinesFrom s before).length := by
  have htwo : ∀ {rest : List Char} {first : List Char}, rest ≠ [] →
      2 ≤ (first :: splitLinesFrom rest []).length := fun hne => by
    have := List.length_pos_iff.2 (splitLinesFrom_ne_nil _ [] (.inl hne))
    rw [List.length_cons]
    omega
  fun_induction splitLinesFrom s before with
  | case1 => simp at hend
  | case2 => simp at hend
  | case3 rest before ih =>
    refine htwo ?_
    rintro rfl
    exact absurd (hlast '\n' rfl) (by decide)
  | case4 c rest before _ hc ih =>
    refine htwo ?_
    rintro rfl
    exact absurd (hlast c rfl) (by simp [hc])
  | case5 c rest before _ hc ih =>
    obtain ⟨x, hx, hxend⟩ := hend
    have hrest : x ∈ rest := by
      rcases List.mem_cons.1 hx with rfl | hx
      · exact absurd hxend hc
      · exact hx
    refine ih ⟨x, hrest, hxend⟩ fun y hy => hlast y ?_
    rwa [List.getLast?_cons_of_ne_nil (List.ne_nil_of_mem hrest)]

/-- **A text that does not end with a line end is one line** if and only if it has none. -/
theorem length_splitLines_eq_one_iff (hne : s ≠ [])
    (hlast : ∀ c ∈ s.getLast?, isLineEnd c = false) :
    (splitLines s).length = 1 ↔ ∀ c ∈ s, isLineEnd c = false := by
  constructor
  · intro h c hc
    by_contra hend
    have := two_le_length_splitLinesFrom s [] ⟨c, hc, by simpa using hend⟩ hlast
    rw [splitLines] at h
    omega
  · intro h
    rw [splitLines_line h hne, List.length_singleton]

/-! ## Carriage returns -/

/-- A text without carriage returns is read as it is. -/
theorem foldReturns_eq_self (h : '\r' ∉ s) : foldReturns s = s := by
  induction s with
  | nil => rfl
  | cons c s ih =>
    have hc : c ≠ '\r' := by
      intro hc
      exact h (by simp [hc])
    rw [foldReturns, if_neg hc, ih (fun hs => h (by simp [hs]))]
    intro _ hr
    exact absurd hr hc

/-- Folding carriage returns leaves the lines, also the one under construction. -/
theorem splitLinesFrom_foldReturns (s line : List Char) :
    splitLinesFrom (foldReturns s) line = splitLinesFrom s line := by
  fun_induction splitLinesFrom s line with
  | case1 => rfl
  | case2 line hne =>
    rw [foldReturns, splitLinesFrom]
    exact hne
  | case3 rest line ih =>
    rw [foldReturns, splitLinesFrom, if_pos (by decide), ih]
    intro _ hr
    exact absurd hr (by decide)
  | case4 c rest line hpair hc ih =>
    have hfolded : (if c = '\r' then '\n' else c) ≠ '\r' := by
      split
      · decide
      · assumption
    rw [foldReturns, splitLinesFrom, if_pos, ih]
    · split
      · decide
      · exact hc
    · exact fun _ hr => absurd hr hfolded
    · exact hpair
  | case5 c rest line hpair hc ih =>
    have hreturn : c ≠ '\r' := by
      rintro rfl
      exact hc (by decide)
    rw [foldReturns, if_neg hreturn, splitLinesFrom, if_neg hc, ih]
    · exact fun _ hr => absurd hr hreturn
    · exact hpair

/-- **A text has the same lines when its carriage returns are folded.** -/
theorem splitLines_foldReturns (s : List Char) : splitLines (foldReturns s) = splitLines s :=
  splitLinesFrom_foldReturns s []

theorem not_mem_return (h : ∀ c ∈ s, isLineEnd c = false) : '\r' ∉ s :=
  fun hs => absurd (h _ hs) (by decide)

end MemoryLimit.Text
