import Mathlib
import MemoryLimit.Usage.History
import MemoryLimit.Proofs.Usage.Line
import MemoryLimit.Proofs.Usage.Order
import MemoryLimit.Proofs.Entries
import MemoryLimit.Proofs.Host.Tree

/-!
# A history is read from its text

Reading the text of a history gives every workload the record that it had: the lines are split
back, no two of them are of one workload, and so nothing is merged. Whatever the lines of a text
are, only names that can be stored are read from it.

## Main definitions

* `History.Distinct` — no workload has two records.
* `History.textOf` — the lines of records, each with its end.

## Main statements

* `History.read_render` — a history is read from its text.
* `History.mem_of_foldlM_mergeLine` — lines add no records but their own.
* `History.isStorable_of_read`, `History.isText_of_read` — every name that is read from a text is
  storable, and a text.
* `History.read_usageLine` — the text of a single line is read as its record.
-/
namespace MemoryLimit

open Text

namespace History

/-- Every workload has one record. -/
def Distinct (h : History) : Prop :=
  (h.entries.map Prod.fst).Nodup

instance (h : History) : Decidable h.Distinct :=
  inferInstanceAs (Decidable (h.entries.map Prod.fst).Nodup)

/-- A workload has the record that is among the entries. -/
theorem get?_eq_some_iff {h : History} (hdistinct : h.Distinct) {id : RawText} {usage : Usage} :
    h.get? id = some usage ↔ (id, usage) ∈ h.entries :=
  lookup_eq_some_iff_mem hdistinct

/-- The order of the entries does not matter. -/
theorem get?_eq_of_perm {h g : History} (hdistinct : h.Distinct) (hperm : g.entries.Perm h.entries)
    (id : RawText) : g.get? id = h.get? id := by
  have hg : g.Distinct := (hperm.map Prod.fst).nodup_iff.2 hdistinct
  apply Option.ext
  intro usage
  rw [get?_eq_some_iff hg, get?_eq_some_iff hdistinct, hperm.mem_iff]

theorem get?_eq_none {h : History} {id : RawText} (hid : id ∉ h.entries.map Prod.fst) :
    h.get? id = none := by
  rw [get?, List.lookup_eq_none_iff]
  intro entry hentry
  rw [bne_iff_ne]
  rintro rfl
  exact hid (List.mem_map.2 ⟨entry, hentry, rfl⟩)

/-! ## Lines of a text -/

/-- The text of records, in their order. -/
def textOf (entries : List (RawText × Usage)) : RawText :=
  RawText.join (entries.map fun entry => usageLine entry.1 entry.2 ++ RawText.ofString "\n")

/-- The text of records is one without halves if and only if all the names are. -/
theorem isText_textOf (entries : List (RawText × Usage)) :
    (textOf entries).isText = entries.all fun entry => entry.1.isText := by
  simp [textOf, RawText.isText_join, List.all_map, Function.comp_def]

theorem shown_textOf (entries : List (RawText × Usage)) :
    (textOf entries).shown =
      (entries.map fun entry => (usageLine entry.1 entry.2).shown).flatMap (· ++ ['\n']) := by
  simp [textOf, RawText.shown_join, List.flatMap_map]

variable {entries : List (RawText × Usage)}

/-- The text of records with storable names has the lines of the records. -/
theorem splitLines_textOf (h : ∀ entry ∈ entries, Storable entry.1.shown) :
    splitLines (textOf entries).shown =
      entries.map fun entry => (usageLine entry.1 entry.2).shown := by
  rw [shown_textOf, splitLines_lines]
  intro line hline
  obtain ⟨entry, hentry, rfl⟩ := List.mem_map.1 hline
  exact not_isLineEnd_of_mem_usageLine (h _ hentry) _

/-- The text of records with storable names has no carriage return in it. -/
theorem foldReturns_textOf (h : ∀ entry ∈ entries, Storable entry.1.shown) :
    foldReturns (textOf entries).shown = (textOf entries).shown := by
  refine foldReturns_eq_self ?_
  rw [shown_textOf, List.mem_flatMap]
  rintro ⟨line, hline, hreturn⟩
  obtain ⟨entry, hentry, rfl⟩ := List.mem_map.1 hline
  rcases List.mem_append.1 hreturn with hline | hend
  · exact not_mem_return (not_isLineEnd_of_mem_usageLine (h _ hentry) _) hline
  · exact absurd hend (by decide)

/-! ## Reading lines -/

/-- The record of a workload that has none yet is added at the end. -/
theorem mergeLine_usageLine {h : History} {id : RawText} {usage : Usage} (hid : Storable id.shown)
    (htext : id.isText = true) (hheld : usage.Held) (hnew : id ∉ h.entries.map Prod.fst) :
    h.mergeLine (usageLine id usage).shown = .ok ⟨h.entries ++ [(id, usage)]⟩ := by
  have hnone := get?_eq_none hnew
  have hmerge : h.merge id usage = .ok ⟨h.entries ++ [(id, usage)]⟩ := by
    rw [merge, mergedWith, hnone]
    simp [Except.map, put, contains, hnone]
  rw [mergeLine, isIgnored_usageLine hid, if_neg (by simp), ← RawText.string,
    readLine_usageLine hid htext hheld]
  change Signal.raise (h.merge id usage) = _
  rw [hmerge]
  rfl

/-- The lines of records of different workloads are read one after the other. -/
theorem foldlM_mergeLine (h : History) (entries : List (RawText × Usage))
    (hdistinct : ((h.entries ++ entries).map Prod.fst).Nodup)
    (hid : ∀ entry ∈ entries, Storable entry.1.shown)
    (htext : ∀ entry ∈ entries, entry.1.isText = true) (hheld : ∀ entry ∈ entries, entry.2.Held) :
    (entries.map fun entry => (usageLine entry.1 entry.2).shown).foldlM mergeLine h =
      .ok ⟨h.entries ++ entries⟩ := by
  induction entries generalizing h with
  | nil => simp [pure, Except.pure]
  | cons entry rest ih =>
    obtain ⟨id, usage⟩ := entry
    have hnew : id ∉ h.entries.map Prod.fst := by
      intro hmem
      rw [List.map_append, List.map_cons] at hdistinct
      exact (List.disjoint_of_nodup_append hdistinct) hmem (by simp)
    rw [List.map_cons, List.foldlM_cons,
      mergeLine_usageLine (hid _ (by simp)) (htext _ (by simp)) (hheld _ (by simp)) hnew]
    have hrest := ih ⟨h.entries ++ [(id, usage)]⟩ (by simpa using hdistinct)
      (fun other hother => hid other (by simp [hother]))
      (fun other hother => htext other (by simp [hother]))
      (fun other hother => hheld other (by simp [hother]))
    rwa [List.append_assoc, List.singleton_append] at hrest

/-- **The text of records of different workloads is read as those records.** -/
theorem read_textOf (hdistinct : (entries.map Prod.fst).Nodup)
    (hid : ∀ entry ∈ entries, Storable entry.1.shown)
    (htext : ∀ entry ∈ entries, entry.1.isText = true) (hheld : ∀ entry ∈ entries, entry.2.Held) :
    read (textOf entries).string = .ok ⟨entries⟩ := by
  rw [read, RawText.string, String.toList_ofList, splitLines_textOf hid]
  exact foldlM_mergeLine {} entries hdistinct hid htext hheld

/-- The line of a storable name alone, without its end, is read as its record. -/
theorem read_usageLine {id : RawText} {usage : Usage} (hid : Storable id.shown)
    (htext : id.isText = true) (hheld : usage.Held) :
    read (usageLine id usage).string = .ok ⟨[(id, usage)]⟩ := by
  have hne : (usageLine id usage).shown ≠ [] := by simp [shown_usageLine]
  rw [read, RawText.string, String.toList_ofList,
    splitLines_line (not_isLineEnd_of_mem_usageLine hid usage) hne]
  exact foldlM_mergeLine {} [(id, usage)] (by simp) (by simpa using hid) (by simpa using htext)
    (by simpa using hheld)

/-! ## Histories -/

theorem sorted_perm (h : History) : h.sorted.Perm h.entries :=
  List.mergeSort_perm _ _

/-- The lines of records with storable names are written. -/
theorem mapM_writeLine (hid : ∀ entry ∈ entries, Storable entry.1.shown)
    (hheld : ∀ entry ∈ entries, entry.2.Held) :
    (entries.mapM fun entry => writeLine entry.1 entry.2) =
      .ok (entries.map fun entry => usageLine entry.1 entry.2) := by
  induction entries with
  | nil => rfl
  | cons entry rest ih =>
    have hline : writeLine entry.1 entry.2 = .ok (usageLine entry.1 entry.2) := by
      rw [writeLine_eq (hheld entry (by simp)), if_pos (isStorable_iff.2 (hid entry (by simp)))]
    rw [List.mapM_cons, hline, ih (fun other hother => hid other (by simp [hother]))
      (fun other hother => hheld other (by simp [hother]))]
    rfl

theorem forall₂_of_mapM {lines : List RawText}
    (hlines : (entries.mapM fun entry => writeLine entry.1 entry.2) = .ok lines) :
    List.Forall₂ (fun entry line => writeLine entry.1 entry.2 = .ok line) entries lines := by
  induction entries generalizing lines with
  | nil =>
    cases hlines
    exact .nil
  | cons entry rest ih =>
    simp only [List.mapM_cons, bind_eq_ok] at hlines
    obtain ⟨line, hline, more, hmore, hreturn⟩ := hlines
    cases hreturn
    exact .cons hline (ih hmore)

/-- The text of a history is the lines of its records in order, each with its end. -/
theorem render_eq_ok {h : History} {text : RawText} (hrender : h.render = .ok text) :
    ∃ lines, List.Forall₂ (fun entry line => writeLine entry.1 entry.2 = .ok line) h.sorted lines ∧
      text = RawText.join (lines.map (· ++ RawText.ofString "\n")) := by
  rw [render, bind_eq_ok] at hrender
  obtain ⟨lines, hlines, hreturn⟩ := hrender
  cases hreturn
  exact ⟨lines, forall₂_of_mapM hlines, rfl⟩

/-- A history has a text only if the line of every record is written. -/
theorem exists_writeLine_of_render {h : History} {text : RawText} (hrender : h.render = .ok text) :
    ∀ entry ∈ h.entries, ∃ line, writeLine entry.1 entry.2 = .ok line := by
  obtain ⟨lines, hlines, -⟩ := render_eq_ok hrender
  have hwritten : List.Forall₂ (fun entry line =>
      (∃ line, writeLine entry.1 entry.2 = .ok line) ∧ writeLine entry.1 entry.2 = .ok line)
      h.sorted lines := hlines.imp fun _ line hline => ⟨⟨line, hline⟩, hline⟩
  intro entry hentry
  exact ((List.forall₂_and_left _ _).1 hwritten).1 entry (h.sorted_perm.mem_iff.2 hentry)

/-- The text of a history of storable names has its records in order. -/
theorem render_eq {h : History} (hid : ∀ entry ∈ h.entries, Storable entry.1.shown)
    (hheld : ∀ entry ∈ h.entries, entry.2.Held) : h.render = .ok (textOf h.sorted) := by
  have hlines := mapM_writeLine (fun entry hentry => hid entry (h.sorted_perm.mem_iff.1 hentry))
    (fun entry hentry => hheld entry (h.sorted_perm.mem_iff.1 hentry))
  change (h.sorted.mapM fun entry => writeLine entry.1 entry.2) >>=
    (fun lines => pure (RawText.join (lines.map (· ++ RawText.ofString "\n")))) = _
  rw [hlines, textOf]
  simp [bind, Except.bind, pure, Except.pure, List.map_map, Function.comp_def]

/-- **A history is read from its text**, with its records in the order of the names. -/
theorem read_render {h : History} (hdistinct : h.Distinct)
    (hid : ∀ entry ∈ h.entries, Storable entry.1.shown)
    (htext : ∀ entry ∈ h.entries, entry.1.isText = true)
    (hheld : ∀ entry ∈ h.entries, entry.2.Held) :
    read (textOf h.sorted).string = .ok ⟨h.sorted⟩ :=
  read_textOf ((h.sorted_perm.map Prod.fst).nodup_iff.2 hdistinct)
    (fun entry hentry => hid entry (h.sorted_perm.mem_iff.1 hentry))
    (fun entry hentry => htext entry (h.sorted_perm.mem_iff.1 hentry))
    (fun entry hentry => hheld entry (h.sorted_perm.mem_iff.1 hentry))

/-! ## The names that are read -/

/-- A record that is kept where another one is merged was there before, or is that one. -/
theorem mergedWith_eq_ok {h : History} {id : RawText} {usage kept : Usage}
    (hmerged : h.mergedWith id usage = .ok kept) : (id, kept) ∈ h.entries ∨ kept = usage := by
  rw [mergedWith] at hmerged
  split at hmerged
  · cases hmerged
    exact .inr rfl
  · rename_i current hcurrent
    rcases Usage.larger_eq_ok hmerged with rfl | rfl
    · obtain ⟨before, after, heq, -⟩ := List.lookup_eq_some_iff.1 hcurrent
      exact .inl (by simp [heq])
    · exact .inr rfl

/-- An entry that was not there before a record was put is that record. -/
theorem mem_put {h : History} {id : RawText} {usage : Usage} {entry : RawText × Usage}
    (hentry : entry ∈ (h.put id usage).entries) : entry ∈ h.entries ∨ entry = (id, usage) := by
  rw [put] at hentry
  split at hentry
  · obtain ⟨old, hold, hreplaced⟩ := List.mem_map.1 hentry
    split at hreplaced
    · exact .inr hreplaced.symm
    · exact .inl (hreplaced ▸ hold)
  · rcases List.mem_append.1 hentry with hold | hnew
    · exact .inl hold
    · exact .inr (List.mem_singleton.1 hnew)

/-- A record is merged by putting the one that is kept. -/
theorem merge_eq_ok {g h : History} {id : RawText} {usage : Usage}
    (hmerge : h.merge id usage = .ok g) :
    ∃ kept, h.mergedWith id usage = .ok kept ∧ g = h.put id kept := by
  rw [merge] at hmerge
  cases hkept : h.mergedWith id usage with
  | error signal => simp [hkept, Except.map] at hmerge
  | ok kept =>
    rw [hkept] at hmerge
    cases hmerge
    exact ⟨kept, rfl, rfl⟩

/-- A line adds no record but its own. -/
theorem mem_of_mergeLine {h g : History} {line : List Char} (hmerge : h.mergeLine line = .ok g) :
    ∀ entry ∈ g.entries, entry ∈ h.entries ∨
      isIgnored line = false ∧ readLine (String.ofList line) = .ok entry := by
  rw [mergeLine] at hmerge
  split at hmerge <;> rename_i hignored
  · cases hmerge
    exact fun entry hentry => .inl hentry
  · cases hread : readLine (String.ofList line) with
    | error failure => simp [hread, bind, Except.bind] at hmerge
    | ok record =>
      obtain ⟨id, usage⟩ := record
      simp only [hread, bind, Except.bind] at hmerge
      cases hmerged : h.merge id usage with
      | error signal => simp [hmerged, Signal.raise, Except.mapError] at hmerge
      | ok merged =>
        rw [hmerged] at hmerge
        cases hmerge
        obtain ⟨kept, hkept, rfl⟩ := merge_eq_ok hmerged
        intro entry hentry
        rcases mem_put hentry with hold | rfl
        · exact .inl hold
        · rcases mergedWith_eq_ok hkept with hcurrent | rfl
          · exact .inl hcurrent
          · exact .inr ⟨by simpa using hignored, rfl⟩

/-- Lines add no records but their own, one after the other. -/
theorem mem_of_foldlM_mergeLine {g h : History} {lines : List (List Char)}
    (hfold : lines.foldlM mergeLine g = .ok h) :
    ∀ entry ∈ h.entries, entry ∈ g.entries ∨
      ∃ line ∈ lines, isIgnored line = false ∧ readLine (String.ofList line) = .ok entry := by
  induction lines generalizing g with
  | nil =>
    cases hfold
    exact fun entry hentry => .inl hentry
  | cons line rest ih =>
    rw [List.foldlM_cons] at hfold
    cases hmerge : g.mergeLine line with
    | error failure => simp [hmerge, bind, Except.bind] at hfold
    | ok next =>
      rw [hmerge] at hfold
      intro entry hentry
      rcases ih hfold entry hentry with hnext | ⟨other, hother, hread⟩
      · exact (mem_of_mergeLine hmerge entry hnext).imp_right fun hread => ⟨line, by simp, hread⟩
      · exact .inr ⟨other, List.mem_cons_of_mem _ hother, hread⟩

/-- **Every name that is read from a text is storable**, whatever its lines are. -/
theorem isStorable_of_read {text : String} {h : History} (hread : read text = .ok h) :
    ∀ entry ∈ h.entries, isStorable entry.1 = true := by
  intro entry hentry
  rcases mem_of_foldlM_mergeLine hread entry hentry with hnew | ⟨line, hline, hrecord, hown⟩
  · cases hnew
  · exact isStorable_of_readLine (not_isLineEnd_of_mem_splitLines hline) hrecord hown

/-- **Every name that is read from a text is a text.** -/
theorem isText_of_read {text : String} {h : History} (hread : read text = .ok h) :
    ∀ entry ∈ h.entries, entry.1.isText = true := by
  intro entry hentry
  rcases mem_of_foldlM_mergeLine hread entry hentry with hnew | ⟨_, -, -, hown⟩
  · cases hnew
  · exact isText_of_readLine hown

end History

end MemoryLimit
