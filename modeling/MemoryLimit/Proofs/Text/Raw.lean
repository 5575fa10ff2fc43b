import Mathlib.Data.List.Basic
import Mathlib.Data.List.TakeWhile
import MemoryLimit.Text.Raw

/-!
# Texts with and without halves

A text without halves is a string, and only such a text has bytes. Texts are the same exactly if the
numbers of their code points are, so their order is linear.

## Main statements

* `RawText.ofString_string` — a text without halves is a string.
* `RawText.encode_eq_ok_iff` — the bytes of a text are those of a string.
* `RawText.codes_injective` — a text is given by the numbers of its code points.
-/
namespace MemoryLimit

namespace CodePoint

/-- No character has the number of a half. -/
theorem toNat_ne_half (c : Char) (offset : Fin 0x800) : c.toNat ≠ 0xd800 + offset := by
  have hvalid : c.toNat.isValidChar := c.valid
  rcases hvalid with hlow | ⟨hhigh, -⟩ <;> omega

theorem code_injective : Function.Injective code := by
  rintro (c | offset) (d | other) h
  · exact congrArg char (Char.toNat_inj.1 h)
  · exact absurd h (toNat_ne_half c other)
  · exact absurd h.symm (toNat_ne_half d offset)
  · exact congrArg half (Fin.ext (Nat.add_left_cancel h))

end CodePoint

namespace RawText

variable {t u : RawText}

/-! ## Texts without halves -/

/-- **A text without halves is a string.** -/
theorem ofString_string (h : t.isText = true) : ofString t.string = t := by
  obtain ⟨points⟩ := t
  rw [isText, List.all_eq_true] at h
  rw [ofString, string, String.toList_ofList, shown, List.map_map, mk.injEq]
  refine (List.map_congr_left fun point hpoint => ?_).trans (List.map_id _)
  cases point with
  | char c => rfl
  | half offset => simpa [CodePoint.isHalf] using h _ hpoint

theorem isText_iff : t.isText = true ↔ ∃ s, t = ofString s := by
  constructor
  · exact fun h => ⟨t.string, (ofString_string h).symm⟩
  · rintro ⟨s, rfl⟩
    exact isText_ofString s

theorem ofString_injective : Function.Injective ofString := by
  intro s s' h
  rw [← string_ofString s, h, string_ofString]

theorem ofString_append (s s' : String) : ofString (s ++ s') = ofString s ++ ofString s' :=
  congrArg mk (by rw [String.toList_append, List.map_append]; rfl)

/-- Strings one after the other are the same text as a string and as texts. -/
theorem join_ofString (strings : List String) :
    join (strings.map ofString) = ofString (String.join strings) := by
  simp [join, ofString, String.toList_join, List.flatMap_map, List.map_flatMap]

theorem isText_join (texts : List RawText) : (join texts).isText = texts.all isText :=
  List.all_flatMap

/-- The characters of texts one after the other are those of each. -/
theorem shown_join (texts : List RawText) : (join texts).shown = texts.flatMap shown :=
  List.map_flatMap ..

/-! ## Bytes -/

/-- The first halves of a text are found if there are any. -/
theorem firstHalves?_eq_none_iff : t.firstHalves? = none ↔ t.isText = true := by
  have hall : t.isText = true ↔ t.points.dropWhile (!·.isHalf) = [] := by
    rw [isText, List.all_eq_true, List.dropWhile_eq_nil_iff]
  rw [hall, firstHalves?]
  cases hrest : t.points.dropWhile (!·.isHalf) with
  | nil => simp
  | cons point rest =>
    have hpoint := List.head?_dropWhile_not (!·.isHalf) t.points
    rw [hrest] at hpoint
    cases point with
    | char c => simp [CodePoint.isHalf] at hpoint
    | half offset => simp

/-- **The bytes of a text are those of a string**: a text with halves has none. -/
theorem encode_eq_ok_iff {bytes : ByteArray} :
    t.encode = .ok bytes ↔ t.isText = true ∧ bytes = t.string.toUTF8 := by
  rw [← firstHalves?_eq_none_iff, encode]
  cases t.firstHalves? <;> simp [eq_comm]

theorem encode_of_isText (h : t.isText = true) : t.encode = .ok t.string.toUTF8 :=
  encode_eq_ok_iff.2 ⟨h, rfl⟩

@[simp] theorem encode_ofString (s : String) : (ofString s).encode = .ok s.toUTF8 := by
  rw [encode_of_isText (isText_ofString s), string_ofString]

/-! ## The order of texts -/

/-- **A text is given by the numbers of its code points.** -/
theorem codes_injective : Function.Injective codes := by
  intro t u h
  cases t
  cases u
  exact congrArg mk (CodePoint.code_injective.list_map h)

theorem lt_def : t < u ↔ t.codes < u.codes := Iff.rfl

theorem lt_asymm (h : t < u) : ¬ u < t :=
  List.lt_asymm h

end RawText

end MemoryLimit
