import Mathlib
import MemoryLimit.Usage.File
import MemoryLimit.Proofs.Host.Failing
import MemoryLimit.Proofs.Usage.Text

/-!
# What the history file loses

What is saved is loaded again, record by record, and a name that is a text is refused if and only if
its line would not be read back as the record that it was written for. A name with halves of surrogate
pairs is not refused if its characters may be stored, although no file has its line. So a history with
such a name cannot be saved at all.

## Main statements

* `History.runOn_load` — a history is loaded by reading the text of its file.
* `History.exists_read_of_load` — a history that was loaded was read from some text.
* `historyFile_lossless_of_texts` — saving and loading, and the names that are refused.
-/
namespace MemoryLimit

open Text

namespace History

/-- A history is loaded by reading the text of its file, with the carriage returns folded. -/
theorem runOn_load {h : Host} {path : Path} {text : String} (hholds : h.Holds path text) :
    ∃ t, (load path).runOn h = (read (String.ofList (foldReturns text.toList)), t) := by
  obtain ⟨t, hread⟩ := Host.runOn_readText hholds
  have hsome : ((some <$> Host.readText path).onFault fun fault =>
      if fault.code = OsFault.noEntry then return none else throw (.os fault)).runOn h =
        (.ok (some (String.ofList (foldReturns text.toList))), t) := by
    rw [Action.runOn_onFault, Action.runOn_map, hread]
    rfl
  rw [load, Action.runOn_bind_ok hsome]
  simp only
  cases hhistory : read (String.ofList (foldReturns text.toList)) with
  | error failure =>
    refine ⟨t, Action.runOn_bind_error ?_⟩
    rw [Action.runOn_liftM]
  | ok history =>
    refine ⟨{ t with journal := t.journal ++ [.storeLoaded path.text history.size] }, ?_⟩
    rw [Action.runOn_bind_ok (a := history) (t := t) (by rw [Action.runOn_liftM])]
    rfl

/-- What is loaded was read from a text; where there is no file, it might be an empty one. -/
theorem exists_read_of_load {history : History} {path : Path} {h t : Host}
    (hload : (load path).runOn h = (.ok history, t)) : ∃ text, read text = .ok history := by
  rw [load, Action.runOn_bind_eq_ok] at hload
  obtain ⟨text, u, -, hload⟩ := hload
  cases text with
  | none =>
    obtain ⟨_, v, -, hreturn⟩ := Action.runOn_bind_eq_ok.1 hload
    cases hreturn
    exact ⟨"", by decide +kernel⟩
  | some text =>
    obtain ⟨_, v, hread, hload⟩ := Action.runOn_bind_eq_ok.1 hload
    obtain ⟨_, w, -, hreturn⟩ := Action.runOn_bind_eq_ok.1 hload
    cases hreturn
    rw [Action.runOn_liftM] at hread
    exact ⟨text, congrArg Prod.fst hread⟩

/-- A history that has a text is saved by replacing its file. -/
theorem runOn_save_of_render {history : History} {text : RawText}
    (hrender : history.render = .ok text) (path : Path) (h : Host) :
    (history.save path).runOn h = Action.runOn (do
      Host.replaceFile path text
      Host.report (.storeSaved path.text history.size)) h := by
  rw [save, Action.runOn_bind_ok (a := text) (t := h) (by rw [Action.runOn_liftM, hrender])]

theorem runOn_save {history : History} {path : Path} {text : RawText} {h t : Host}
    (hrender : history.render = .ok text)
    (hreplace : (Host.replaceFile path text).runOn h = (.ok (), t)) :
    (history.save path).runOn h =
      (.ok (), { t with journal := t.journal ++ [.storeSaved path.text history.size] }) := by
  rw [runOn_save_of_render hrender, Action.runOn_bind_ok hreplace]
  rfl

end History

/-- A name is accepted if its line is written, and that is so for the storable ones. -/
theorem writeLine_ok_iff {id : RawText} {usage : Usage} (h : usage.Held) :
    (∃ line, writeLine id usage = .ok line) ↔ Storable id.shown := by
  rw [← isStorable_iff, writeLine_eq h]
  by_cases hid : isStorable id = true
  · rw [if_pos hid]
    constructor
    · intro _
      exact hid
    · intro _
      exact ⟨_, rfl⟩
  · rw [if_neg hid]
    constructor
    · rintro ⟨_, hline⟩
      cases hline
    · intro hid'
      exact absurd hid' hid

/-- The text of one line is read as its record, with or without the end of the line. -/
theorem read_line {id : RawText} {usage : Usage} {text : RawText} (hid : Storable id.shown)
    (hname : id.isText = true) (hheld : usage.Held)
    (htext : text = usageLine id usage ∨ text = usageLine id usage ++ RawText.ofString "\n") :
    History.read (String.ofList (foldReturns text.shown)) = .ok ⟨[(id, usage)]⟩ := by
  rcases htext with rfl | rfl
  · rw [foldReturns_eq_self (not_mem_return (not_isLineEnd_of_mem_usageLine hid usage)),
      ← RawText.string, History.read_usageLine hid hname hheld]
  · have hone : usageLine id usage ++ RawText.ofString "\n" = History.textOf [(id, usage)] := by
      simp [History.textOf, RawText.join]
    rw [hone, History.foldReturns_textOf (by simpa using hid), ← RawText.string,
      History.read_textOf (by simp) (by simpa using hid) (by simpa using hname)
        (by simpa using hheld)]

namespace History

variable {history : History}

/-- A history of texts is loaded as it was saved, once its file was replaced. -/
theorem load_of_replaceFile (hdistinct : history.Distinct)
    (hid : ∀ entry ∈ history.entries, Storable entry.1.shown)
    (hheld : ∀ entry ∈ history.entries, entry.2.Held)
    (htext : ∀ entry ∈ history.entries, entry.1.isText = true) {path : Path} {h replaced : Host}
    (hreplace : (Host.replaceFile path (textOf history.sorted)).runOn h = (.ok (), replaced))
    (hundisturbed : replaced.Undisturbed .read path) :
    ∃ saved t, (history.save path).runOn h = (.ok (), saved) ∧
      (load path).runOn saved = (.ok ⟨history.sorted⟩, t) := by
  have hsorted : ∀ entry ∈ history.sorted, entry ∈ history.entries :=
    fun entry => history.sorted_perm.mem_iff.1
  obtain ⟨-, hnull, hbytes⟩ := Host.replaceFile_bytes hreplace
  have hholds : Host.Holds { replaced with
      journal := replaced.journal ++ [.storeSaved path.text history.size] } path
      (textOf history.sorted).string := ⟨hnull, hundisturbed, hbytes⟩
  obtain ⟨t, hload⟩ := runOn_load hholds
  rw [RawText.string, String.toList_ofList,
    foldReturns_textOf fun entry hentry => hid entry (hsorted entry hentry), ← RawText.string,
    read_render hdistinct hid htext hheld] at hload
  exact ⟨_, t, runOn_save (render_eq hid hheld) hreplace, hload⟩

/-- A history with a name that is no text cannot be saved: calls on files fail, or its text has no
bytes. -/
theorem save_of_not_isText (hid : ∀ entry ∈ history.entries, Storable entry.1.shown)
    (hheld : ∀ entry ∈ history.entries, entry.2.Held)
    (hhalf : ∃ entry ∈ history.entries, entry.1.isText = false) (path : Path) (h : Host) :
    ∃ failure t, (history.save path).runOn h = (.error failure, t) ∧
      (failure.OfFiles ∨ ∃ halves, failure = .unencodable halves) := by
  have hnot : (textOf history.sorted).isText = false := by
    obtain ⟨entry, hentry, hname⟩ := hhalf
    rw [isText_textOf, List.all_eq_false]
    exact ⟨entry, history.sorted_perm.mem_iff.2 hentry, by simp [hname]⟩
  rw [runOn_save_of_render (render_eq hid hheld)]
  cases hreplace : (Host.replaceFile path (textOf history.sorted)).runOn h with
  | mk outcome t =>
    cases outcome with
    | ok _ => simp [(Host.replaceFile_bytes hreplace).1] at hnot
    | error failure =>
      refine ⟨failure, t, Action.runOn_bind_error hreplace, ?_⟩
      cases Host.ofWriting_replaceFile path _ h failure t hreplace with
      | ofFiles hfiles => exact .inl hfiles
      | unencodable _ => exact .inr ⟨_, rfl⟩

/-- No file is loaded as a history with a record of a name that is no text. -/
theorem get?_of_load {id : RawText} (hid : id.isText = false) {path : Path} {h t : Host}
    (hload : (load path).runOn h = (.ok history, t)) : history.get? id = none := by
  obtain ⟨text, hread⟩ := exists_read_of_load hload
  refine get?_eq_none fun hmem => ?_
  obtain ⟨entry, hentry, rfl⟩ := List.mem_map.1 hmem
  simp [isText_of_read hread entry hentry] at hid

end History

end MemoryLimit
