/-!
# Entries of a list by key

A list of pairs is read as a finite map by `List.lookup`, which finds the first pair of a key. If
no key is listed twice, that is the only one.

## Main statements

* `lookup_eq_some_iff_mem` — what is found in a list without repeated keys is what is listed.
* `lookup_filter_of_forall` — pairs of other keys may be dropped.
-/
namespace MemoryLimit

variable {α β : Type} [BEq α] [LawfulBEq α] {l : List (α × β)} {key : α} {b : β}

/-- Where no key is listed twice, a pair is found exactly if it is listed. -/
theorem lookup_eq_some_iff_mem (hnodup : (l.map Prod.fst).Nodup) :
    l.lookup key = some b ↔ (key, b) ∈ l := by
  induction l with
  | nil => simp
  | cons entry rest ih =>
    obtain ⟨other, first⟩ := entry
    rw [List.map_cons, List.nodup_cons] at hnodup
    rw [List.lookup_cons, List.mem_cons, Prod.mk.injEq]
    by_cases hkey : key = other
    · subst hkey
      have hnone : (key, b) ∉ rest := by
        intro hmem
        exact hnodup.1 (List.mem_map.2 ⟨_, hmem, rfl⟩)
      simp [hnone, eq_comm]
    · rw [beq_false_of_ne hkey]
      simp [hkey, ih hnodup.2]

/-- Dropping pairs of other keys does not change what is found. -/
theorem lookup_filter_of_forall {keep : α × β → Bool} (h : ∀ b, (key, b) ∈ l → keep (key, b)) :
    (l.filter keep).lookup key = l.lookup key := by
  induction l with
  | nil => rfl
  | cons entry rest ih =>
    obtain ⟨other, first⟩ := entry
    have hrest := ih fun b hb => h b (List.mem_cons_of_mem _ hb)
    by_cases hkey : key = other
    · subst hkey
      rw [List.filter_cons_of_pos (h first (by simp))]
      simp
    · rw [List.filter_cons]
      split <;> simp [List.lookup_cons, beq_false_of_ne hkey, hrest]

end MemoryLimit
