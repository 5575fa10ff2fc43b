import Mathlib
import MemoryLimit.Usage.File
import MemoryLimit.Proofs.Usage.Text

/-!
# The text of a history is its records in order

The records of a history are written in the order of the names, and no name has two. So the text is
a matter of which record each name has, and not of the order in which they came.

## Main definitions

* `History.Same` — two histories have the same record for each name.

## Main statements

* `History.Distinct.pairwise_sorted` — the records are in strict order.
* `History.exists_lines_of_render` — the lines have no halves if the text has none.
* `History.Same.save_eq` — histories that have the same records are saved alike.
-/
namespace MemoryLimit.History

variable {g h : History} {text : RawText}

/-- Two histories have the same record for each name, in whatever order they have them. -/
def Same (g h : History) : Prop :=
  ∀ id, g.get? id = h.get? id

/-! ## Records in order -/

/-- The records of a history are in strict order of the names. -/
theorem Distinct.pairwise_sorted (hh : h.Distinct) : h.sorted.Pairwise fun a b => a.1 < b.1 := by
  have hnames : h.sorted.Pairwise fun a b => a.1 ≠ b.1 :=
    List.pairwise_map.1 ((h.sorted_perm.map Prod.fst).nodup_iff.2 hh)
  have hle : ∀ a b : RawText × Usage, (!decide (b.1 < a.1)) = true ↔ a.1.codes ≤ b.1.codes := by
    intro a b
    rw [Bool.not_eq_true', decide_eq_false_iff_not, RawText.lt_def, not_lt]
  have hordered : h.sorted.Pairwise fun a b => (!decide (b.1 < a.1)) = true := by
    refine List.pairwise_mergeSort (fun a b c hab hbc => ?_) (fun a b => ?_) h.entries
    · rw [hle] at hab hbc ⊢
      exact hab.trans hbc
    · rw [Bool.or_eq_true, hle, hle]
      exact le_total a.1.codes b.1.codes
  exact (hordered.and hnames).imp fun hab =>
    lt_of_le_of_ne ((hle _ _).1 hab.1) fun heq => hab.2 (RawText.codes_injective heq)

/-- Histories that have the same records have the same entries. -/
theorem Same.perm (hsame : g.Same h) (hg : g.Distinct) (hh : h.Distinct) :
    g.entries.Perm h.entries := by
  refine (List.perm_ext_iff_of_nodup hg.of_map hh.of_map).2 fun entry => ?_
  rw [← get?_eq_some_iff hg, ← get?_eq_some_iff hh, hsame]

/-- **The order in which the records came does not matter**: histories that have the same records
have them in the same order. -/
theorem Same.sorted_eq (hsame : g.Same h) (hg : g.Distinct) (hh : h.Distinct) :
    g.sorted = h.sorted := by
  have hperm : g.sorted.Perm h.sorted :=
    g.sorted_perm.trans ((hsame.perm hg hh).trans h.sorted_perm.symm)
  exact List.Perm.eq_of_pairwise (fun a b _ _ hab hba => absurd hba (RawText.lt_asymm hab))
    hg.pairwise_sorted hh.pairwise_sorted hperm

theorem Same.render_eq (hsame : g.Same h) (hg : g.Distinct) (hh : h.Distinct) :
    g.render = h.render := by
  rw [render, render, hsame.sorted_eq hg hh]

/-- Histories that have the same records are saved alike. -/
theorem Same.save_eq (hsame : g.Same h) (hg : g.Distinct) (hh : h.Distinct) (path : Path) :
    g.save path = h.save path := by
  have hsize : g.size = h.size := (hsame.perm hg hh).length_eq
  rw [save, save, hsame.render_eq hg hh, hsize]

/-! ## Lines -/

/-- If the text of a history has no halves, it is made of lines that have none. -/
theorem exists_lines_of_render (hrender : h.render = .ok text) (htext : text.isText = true) :
    ∃ lines : List String, text = RawText.ofString (String.join (lines.map (· ++ "\n"))) ∧
      List.Forall₂ (fun entry (line : String) => writeLine entry.1 entry.2 = .ok (line : RawText))
        h.sorted lines := by
  obtain ⟨lines, hlines, rfl⟩ := render_eq_ok hrender
  obtain ⟨strings, rfl⟩ : ∃ strings : List String, lines = strings.map RawText.ofString := by
    refine ⟨lines.map RawText.string, ?_⟩
    rw [List.map_map]
    refine (List.map_id _).symm.trans (List.map_congr_left fun line hline => ?_)
    rw [RawText.isText_join, List.all_map, List.all_eq_true] at htext
    have hhalves := htext line hline
    rw [Function.comp_apply, RawText.isText_append, Bool.and_eq_true] at hhalves
    exact (RawText.ofString_string hhalves.1).symm
  rw [List.forall₂_map_right_iff] at hlines
  refine ⟨strings, ?_, hlines⟩
  simp [← RawText.join_ofString, Function.comp_def, RawText.ofString_append]

end MemoryLimit.History
