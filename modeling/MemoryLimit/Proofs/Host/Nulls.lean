import Mathlib
import MemoryLimit.Proofs.Host.Nodes
import MemoryLimit.Proofs.Path
import MemoryLimit.Proofs.Text.Digits

/-!
# The character that ends paths

No call takes a path with the character that ends paths in one of its names. Splitting a text at its
slashes neither loses that character nor brings it in, so it is in a path if it is in the text of the
path, and not in the names that are drawn for fresh directories unless it is in their parent or stem.

## Main statements

* `Path.hasNull_read` — a path has the character if the text that it was read from has it.
* `Host.hasNull_freshPath` — the paths that are drawn for fresh directories do not have it.
-/
namespace MemoryLimit

namespace Path

variable {p : Path}

/-- A character other than the mark is in one of the pieces if it is in the text. -/
theorem exists_mem_splitFrom_iff {mark c : Char} (hc : c ≠ mark) (s piece : List Char) :
    (∃ x ∈ splitFrom mark s piece, c ∈ x) ↔ c ∈ s ∨ c ∈ piece := by
  induction s generalizing piece with
  | nil => simp [splitFrom]
  | cons d s ih =>
    rw [splitFrom]
    by_cases hd : d = mark
    · have hcd : c ≠ d := by
        rw [hd]
        exact hc
      rw [if_pos hd]
      simp only [List.mem_cons, exists_eq_or_imp, List.mem_reverse, ih, List.not_mem_nil, hcd]
      tauto
    · rw [if_neg hd, ih]
      simp only [List.mem_cons]
      tauto

/-- **A path has the character that ends paths** if the text that it was read from has it. -/
theorem hasNull_read (text : String) : (read text).hasNull = true ↔ '\x00' ∈ text.toList := by
  have hpieces := exists_mem_splitFrom_iff (by decide : '\x00' ≠ '/') text.toList []
  rw [or_iff_left (List.not_mem_nil)] at hpieces
  rw [← hpieces, hasNull, names_read, namesIn, List.any_eq_true]
  simp only [List.contains_iff_mem, List.mem_filter, List.mem_map]
  constructor
  · intro hname
    obtain ⟨_, ⟨⟨x, hx, rfl⟩, -⟩, hnull⟩ := hname
    exact ⟨x, hx, by simpa using hnull⟩
  · intro hpiece
    obtain ⟨x, hx, hnull⟩ := hpiece
    -- a piece with the character in it is neither empty nor a dot, so it is a name
    have hne : String.ofList x ≠ "" := by
      intro hempty
      simp [String.ofList_eq_empty_iff.1 hempty] at hnull
    have hdot : String.ofList x ≠ "." := by
      intro hdot
      rw [← String.toList_inj, String.toList_ofList] at hdot
      simp [hdot] at hnull
    exact ⟨_, ⟨⟨x, hx, rfl⟩, by simp [hne, hdot]⟩, by simpa using hnull⟩

/-- A character of names with slashes between them is a slash, or is in one of the names. -/
theorem mem_intercalate {names : List String} {c : Char}
    (hc : c ∈ (String.intercalate "/" names).toList) : c = '/' ∨ ∃ name ∈ names, c ∈ name.toList := by
  rw [String.toList_intercalate] at hc
  induction names with
  | nil => simp at hc
  | cons first rest ih =>
    cases rest with
    | nil => exact .inr ⟨first, by simp, by simpa using hc⟩
    | cons second rest =>
      rw [List.map_cons, List.map_cons, List.intercalate_cons_cons, List.mem_append,
        List.mem_append, ← List.map_cons] at hc
      rcases hc with (hfirst | hslash) | hmore
      · exact .inr ⟨first, by simp, hfirst⟩
      · exact .inl (by simpa using hslash)
      · rcases ih hmore with hslash | ⟨name, hname, hc⟩
        · exact .inl hslash
        · exact .inr ⟨name, List.mem_cons_of_mem _ hname, hc⟩

/-- The text of a path has no character that ends paths, if none of its names has. -/
theorem null_not_mem_text (hp : p.hasNull = false) : '\x00' ∉ p.text.toList := by
  intro hmem
  by_cases hempty : p.slashes = 0 ∧ p.names = []
  · rw [text_of_empty hempty.1 hempty.2] at hmem
    simp at hmem
  · rw [Decidable.not_and_iff_not_or_not] at hempty
    rw [toList_text hempty, List.mem_append] at hmem
    rcases hmem with hslash | hnames
    · simp at hslash
    · rcases mem_intercalate hnames with hslash | ⟨name, hname, hnull⟩
      · simp at hslash
      · rw [hasNull, List.any_eq_false] at hp
        exact hp name hname (by simpa using hnull)

/-- A text has no character that ends paths, if a path that it leads to below another one has none. -/
theorem null_not_mem_of_child {text : String} (hp : (p.child text).hasNull = false) :
    '\x00' ∉ text.toList := by
  rw [← hasNull_read, Bool.not_eq_true]
  rw [child, join] at hp
  split at hp
  · exact hp
  · rw [hasNull, List.any_append, Bool.or_eq_false_iff] at hp
    exact hp.2

/-- A file has the character that ends paths, if its directory or its name has it. -/
theorem hasNull_child {name : String} (hname : IsFileName name) :
    (p.child name).hasNull = (p.hasNull || name.toList.contains '\x00') := by
  rw [hasNull, hasNull, names_child hname, List.any_append]
  simp

theorem hasNull_child_eq_false {name : String} (hname : IsFileName name)
    (hplain : name.toList.contains '\x00' = false) (hp : p.hasNull = false) :
    (p.child name).hasNull = false := by
  rw [hasNull_child hname, hp, hplain, Bool.or_false]

theorem hasNull_of_child {name : String} (hname : IsFileName name)
    (hp : (p.child name).hasNull = false) : p.hasNull = false := by
  rw [hasNull_child hname, Bool.or_eq_false_iff] at hp
  exact hp.1

end Path

namespace Host

theorem null_not_mem_freshSuffix (count : Nat) : '\x00' ∉ (freshSuffix count).toList := by
  intro hmem
  rw [freshSuffix, String.toList_ofList, List.mem_append] at hmem
  rcases hmem with hzero | hdigit
  · simp at hzero
  · have hisDigit := Text.isDigit_of_mem_natDigits hdigit
    simp at hisDigit

/-- **The paths that are drawn for fresh directories** do not have the character that ends paths. -/
theorem hasNull_freshPath {parent : Path} {stem : String} (hparent : parent.hasNull = false)
    (hstem : '\x00' ∉ stem.toList) (count : Nat) : (freshPath parent stem count).hasNull = false := by
  have htext := Path.null_not_mem_text hparent
  have hsuffix := null_not_mem_freshSuffix count
  rw [freshPath, ← Bool.not_eq_true, Path.hasNull_read, Path.appendName]
  split
  · simp [hstem, hsuffix]
  · dsimp only
    split <;> simp [htext, hstem, hsuffix]

end Host

end MemoryLimit
