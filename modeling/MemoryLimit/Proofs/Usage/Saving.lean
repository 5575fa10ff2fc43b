import MemoryLimit.Proofs.Decimal.Range
import MemoryLimit.Proofs.Usage.File
import MemoryLimit.Proofs.Usage.Merge

/-!
# What was saved is loaded

A history that was read from a text, with records merged into it whose decimal numbers are numbers that
there are, has one such record for each workload. If it can be saved, its names can be stored and its
integers written, so it is loaded again as it was saved.

## Main definitions

* `Usage.Exact` — the decimal numbers of a record are numbers that there are.
* `History.Sound` — every workload has one record, and that is exact.

## Main statements

* `History.sound_of_load`, `History.Sound.merge` — what is loaded is sound, and stays so.
* `History.Sound.load_of_save` — a sound history that was saved is loaded.
-/
namespace MemoryLimit

open Text

/-- The decimal numbers of a record are numbers that there are. -/
structure Usage.Exact (usage : Usage) : Prop where
  cpu : usage.cpuSeconds.Held
  wall : usage.wallSeconds.Held

/-! ## Records that are read -/

/-- The figures of a record that is read can be written. -/
theorem held_of_readFigures {exitCode cpu wall limit : List Char} {usage : Usage}
    (h : readFigures exitCode cpu wall limit = .ok usage) : usage.Held := by
  simp only [readFigures, bind_eq_ok] at h
  obtain ⟨_, hcode, x, hx, y, hy, _, hlimit, hreturn⟩ := h
  cases hreturn
  rw [mapError_eq_ok] at hcode hx hy hlimit
  exact ⟨digitCount_of_readInteger hcode, held_of_readDecimal hx, held_of_readDecimal hy,
    digitCount_of_readInteger hlimit⟩

theorem held_of_readLine {line : String} {id : RawText} {usage : Usage}
    (h : readLine line = .ok (id, usage)) : usage.Held := by
  rw [readLine] at h
  split at h
  · split at h
    · rename_i hfigures
      cases h
      exact held_of_readFigures hfigures
    · cases h
  · cases h

theorem Usage.Held.exact {usage : Usage} (h : usage.Held) : usage.Exact :=
  ⟨h.cpu, h.wall⟩

/-! ## Sound histories -/

/-- Every workload has one record, and its decimal numbers are numbers that there are. -/
structure History.Sound (h : History) : Prop where
  distinct : h.Distinct
  exact : ∀ entry ∈ h.entries, entry.2.Exact

namespace History

variable {g h : History} {id : RawText} {usage : Usage}

theorem sound_empty : History.Sound {} :=
  ⟨List.nodup_nil, by rintro _ ⟨⟩⟩

/-- A sound history is sound after an exact record was merged. -/
theorem Sound.merge (hh : h.Sound) (husage : usage.Exact) (hmerge : h.merge id usage = .ok g) :
    g.Sound := by
  obtain ⟨kept, hkept, rfl⟩ := merge_eq_ok hmerge
  refine ⟨hh.distinct.put id kept, fun entry hentry => ?_⟩
  rcases mem_put hentry with hold | rfl
  · exact hh.exact entry hold
  · rcases mergedWith_eq_ok hkept with hcurrent | rfl
    · exact hh.exact _ hcurrent
    · exact husage

theorem Sound.mergeLine {line : List Char} (hh : h.Sound) (hmerge : h.mergeLine line = .ok g) :
    g.Sound := by
  rw [History.mergeLine] at hmerge
  split at hmerge
  · cases hmerge
    exact hh
  · rw [bind_eq_ok] at hmerge
    obtain ⟨⟨id, usage⟩, hread, hmerge⟩ := hmerge
    exact hh.merge (held_of_readLine hread).exact (mapError_eq_ok.1 hmerge)

/-- **What is read from a text is sound.** -/
theorem sound_of_read {text : String} (hread : read text = .ok h) : h.Sound := by
  rw [read] at hread
  have hstart := sound_empty
  generalize ({} : History) = start at hread hstart
  generalize splitLines text.toList = lines at hread
  induction lines generalizing start with
  | nil =>
    cases hread
    exact hstart
  | cons line rest ih =>
    rw [List.foldlM_cons, bind_eq_ok] at hread
    obtain ⟨next, hline, hrest⟩ := hread
    exact ih next (hstart.mergeLine hline) hrest

/-- What is loaded from a file is sound. -/
theorem sound_of_load {path : Path} {s t : Host} (hload : (load path).runOn s = (.ok h, t)) :
    h.Sound := by
  obtain ⟨text, hread⟩ := exists_read_of_load hload
  exact sound_of_read hread

/-! ## Saving -/

/-- The integers of a line that is written are not too long, and its name can be stored. -/
theorem held_of_writeLine {line : RawText} (husage : usage.Exact)
    (hline : writeLine id usage = .ok line) : usage.Held ∧ Storable id.shown := by
  have hfield : ∀ {i : ℤ} {text : String}, integerField i = .ok text →
      digitCount i.natAbs ≤ maxNumeralDigits := by
    intro i text hfield
    rw [integerField, writeInteger] at hfield
    by_contra hlong
    rw [if_pos (not_le.1 hlong)] at hfield
    cases hfield
  rw [writeLine] at hline
  split at hline
  · rename_i hid
    simp only [bind_eq_ok] at hline
    obtain ⟨_, hcode, _, hlimit, -⟩ := hline
    exact ⟨⟨hfield hcode, husage.cpu, husage.wall, hfield hlimit⟩, isStorable_iff.1 hid⟩
  · cases hline

/-- **A sound history that was saved is loaded** from its file, record by record. -/
theorem Sound.load_of_save {path : Path} {s t v : Host} (hh : h.Sound)
    (hsave : (h.save path).runOn s = (.ok (), t)) (htree : v.tree = t.tree)
    (hdirectory : v.directory = t.directory) (hundisturbed : v.Undisturbed .read path) :
    ∃ g w, (load path).runOn v = (.ok g, w) ∧ ∀ id, g.get? id = h.get? id := by
  rw [save, Action.runOn_bind_eq_ok] at hsave
  obtain ⟨text, u, hrender, hsave⟩ := hsave
  rw [Action.runOn_liftM, Prod.mk.injEq] at hrender
  obtain ⟨hrender, rfl⟩ := hrender
  obtain ⟨_, w, hreplace, hreport⟩ := Action.runOn_bind_eq_ok.1 hsave
  cases hreport
  -- every line was written, so all names and figures are such that they are read again
  have hlines : ∀ entry ∈ h.entries, entry.2.Held ∧ Storable entry.1.shown := by
    intro entry hentry
    obtain ⟨line, hline⟩ := exists_writeLine_of_render hrender entry hentry
    exact held_of_writeLine (hh.exact entry hentry) hline
  have hid := fun entry hentry => (hlines entry hentry).2
  have hheld := fun entry hentry => (hlines entry hentry).1
  rw [render_eq hid hheld] at hrender
  cases hrender
  obtain ⟨htext, hnull, hbytes⟩ := Host.replaceFile_bytes hreplace
  rw [isText_textOf, List.all_eq_true] at htext
  have hname := fun entry hentry => htext entry (h.sorted_perm.mem_iff.2 hentry)
  have hholds : v.Holds path (textOf h.sorted).string :=
    ⟨hnull, hundisturbed, by rw [htree, hdirectory]; exact hbytes⟩
  obtain ⟨w, hload⟩ := runOn_load hholds
  rw [RawText.string, String.toList_ofList,
    foldReturns_textOf (fun entry hentry => hid entry (h.sorted_perm.mem_iff.1 hentry)),
    ← RawText.string, read_render hh.distinct hid hname hheld] at hload
  exact ⟨_, w, hload, get?_eq_of_perm hh.distinct h.sorted_perm⟩

end History

end MemoryLimit
