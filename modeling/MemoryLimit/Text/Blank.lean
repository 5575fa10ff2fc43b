/-!
# Blank characters and words

A text is cut into words at runs of blank characters. The blanks are the white space of the
Unicode character database together with the four information separators, so a line read from a
file is cut the same way whatever the alphabet of its author.

## Main definitions

* `isBlank` — the class of blank characters.
* `trim` — a text without the blanks at its two ends.
* `words` — the maximal runs of non-blank characters, in order.
* `lastWords n` — the last `n` words one by one, and what stands before them as one piece.
-/
namespace MemoryLimit.Text

/-- A character that separates words: white space of any script, and U+001C to U+001F. -/
def isBlank (c : Char) : Bool :=
  let n := c.toNat
  (9 ≤ n && n ≤ 13) || (28 ≤ n && n ≤ 32) || n == 0x85 || n == 0xa0 || n == 0x1680 ||
    (0x2000 ≤ n && n ≤ 0x200a) || n == 0x2028 || n == 0x2029 || n == 0x202f || n == 0x205f ||
    n == 0x3000

/-- The blanks that ASCII has in the class of the C locale: tab to carriage return, and space. -/
def isAsciiBlank (c : Char) : Bool :=
  let n := c.toNat
  (9 ≤ n && n ≤ 13) || n == 32

/-- Drops the leading characters of a class. -/
def trimLeft (p : Char → Bool) (s : List Char) : List Char :=
  s.dropWhile p

/-- Drops the trailing characters of a class. -/
def trimRight (p : Char → Bool) (s : List Char) : List Char :=
  (s.reverse.dropWhile p).reverse

/-- Drops the characters of a class at both ends. -/
def trimOf (p : Char → Bool) (s : List Char) : List Char :=
  trimRight p (trimLeft p s)

/-- Drops the blanks at both ends. -/
def trim (s : List Char) : List Char :=
  trimOf isBlank s

/-- The words of a text and the word under construction, read from the right. -/
private def wordsStep (c : Char) : List Char × List (List Char) → List Char × List (List Char)
  | (word, done) =>
    if isBlank c then ([], if word.isEmpty then done else word :: done) else (c :: word, done)

/-- The maximal runs of non-blank characters, in order. -/
def words (s : List Char) : List (List Char) :=
  let (word, done) := s.foldr wordsStep ([], [])
  if word.isEmpty then done else word :: done

@[simp] theorem words_nil : words [] = [] := rfl

theorem words_cons_of_isBlank {c : Char} (hc : isBlank c = true) (s : List Char) :
    words (c :: s) = words s := by
  simp only [words, List.foldr_cons, wordsStep, hc, if_true, List.isEmpty_nil]

/-- The word under construction is the one that the text begins with. -/
private theorem foldr_wordsStep (s : List Char) :
    s.foldr wordsStep ([], []) =
      (s.takeWhile (!isBlank ·), words (s.dropWhile (!isBlank ·))) := by
  induction s with
  | nil => rfl
  | cons c s ih =>
    cases hc : isBlank c with
    | true =>
      rw [List.takeWhile_cons_of_neg (by simp [hc]), List.dropWhile_cons_of_neg (by simp [hc]),
        words_cons_of_isBlank hc, List.foldr_cons, wordsStep, hc, if_pos rfl, words]
    | false =>
      rw [List.takeWhile_cons_of_pos (by simp [hc]), List.dropWhile_cons_of_pos (by simp [hc]),
        List.foldr_cons, ih, wordsStep, hc, if_neg (by simp)]

/-- A text that does not begin with a blank begins with a word. -/
theorem words_cons_of_not_isBlank {c : Char} (hc : isBlank c = false) (s : List Char) :
    words (c :: s) =
      (c :: s.takeWhile (!isBlank ·)) :: words (s.dropWhile (!isBlank ·)) := by
  rw [words, foldr_wordsStep, List.takeWhile_cons_of_pos (by simp [hc]),
    List.dropWhile_cons_of_pos (by simp [hc])]
  rfl

/-- Takes up to `n` words off the right end of a text that is given reversed and without blanks at
that end; what is left, if anything, becomes the first piece. -/
def lastWordsReversed : Nat → List Char → List (List Char) → List (List Char)
  | _, [], found => found
  | 0, rest, found => rest.reverse :: found
  | n + 1, rest, found =>
    let word := rest.takeWhile (!isBlank ·)
    let before := (rest.dropWhile (!isBlank ·)).dropWhile isBlank
    lastWordsReversed n before (word.reverse :: found)

/-- The last `n` words of a text, preceded by the rest of the text in one piece. The blanks between
the pieces are dropped; the blanks inside the first piece stay. -/
def lastWords (n : Nat) (s : List Char) : List (List Char) :=
  lastWordsReversed n (trim s).reverse []

end MemoryLimit.Text
