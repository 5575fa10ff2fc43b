import Mathlib
import MemoryLimit.Proofs.Host.Failing
import MemoryLimit.Proofs.Usage.Loading
import MemoryLimit.Proofs.Usage.Saving
import MemoryLimit.Proofs.Usage.Sorted

/-!
# Saving what was loaded

A text that is loaded may be written by hand: with blanks, digits and underscores of all kinds, with
comments, and with several lines of one workload. What is read from it can always be written: every
name is one that can be stored, and no integer is too long. What is written is the same whatever the
text was like, and loading and saving it changes nothing any more.

## Main statements

* `History.exists_render_of_read` — what is read from a text has a text.
* `History.load_save_normal` — saving what was loaded, loading it and saving it again.
-/
namespace MemoryLimit.History

open Failure (OfFiles)

variable {history : History} {text : String}

/-- Every record that is read from a text can be written. -/
theorem held_of_read (hread : read text = .ok history) :
    ∀ entry ∈ history.entries, entry.2.Held := by
  intro entry hentry
  rcases mem_of_foldlM_mergeLine hread entry hentry with hnew | ⟨_, _, _, hrecord⟩
  · cases hnew
  · exact held_of_readLine hrecord

/-- **What is read from a text has a text**, and that has no halves, because no name has. -/
theorem exists_render_of_read (hread : read text = .ok history) :
    ∃ written : String, history.render = .ok (written : RawText) := by
  have hrender := render_eq
    (fun entry hentry => isStorable_iff.1 (isStorable_of_read hread entry hentry))
    (held_of_read hread)
  have htext : (textOf history.sorted).isText = true := by
    rw [isText_textOf, List.all_eq_true]
    exact fun entry hentry => isText_of_read hread entry (history.sorted_perm.mem_iff.1 hentry)
  obtain ⟨written, hwritten⟩ := RawText.isText_iff.1 htext
  exact ⟨written, by rw [hrender, hwritten]⟩

/-- A history that has a text fails to be saved as its file fails to be replaced. -/
theorem replaceFile_of_save {target : Path} {h t : Host} {failure : Failure}
    (hrender : history.render = .ok (text : RawText))
    (hsave : (history.save target).runOn h = (.error failure, t)) :
    (Host.replaceFile target text).runOn h = (.error failure, t) := by
  rw [runOn_save_of_render hrender] at hsave
  rcases Action.runOn_bind_cases hsave with ⟨_, hreplace, heq⟩ | ⟨_, _, -, hreport⟩
  · cases heq
    exact hreplace
  · cases hreport

/-- A file into which a history was saved has its text. -/
theorem readFile_of_save {target : Path} {h t : Host} (hrender : history.render = .ok (text : RawText))
    (hsave : (history.save target).runOn h = (.ok (), t)) :
    t.tree.readFile t.directory target = .ok text.toUTF8 := by
  rw [runOn_save_of_render hrender] at hsave
  obtain ⟨_, u, hreplace, hreport⟩ := Action.runOn_bind_eq_ok.1 hsave
  cases hreport
  have hbytes := (Host.replaceFile_bytes hreplace).2.2
  rwa [RawText.string_ofString] at hbytes

/-- **What is loaded can be saved, and saving it once makes it normal.** Whatever the text was from
which a history was loaded, the history has a text. Saving it anywhere fails only if the file cannot
be replaced, by a fault of the operating system or because the path is none. If it is saved, the file
has that text, and as long as nobody changes the file, loading it gives a history that has the very
record that the first one has for each name, and no others. That one is saved everywhere as the first
one is, and each time with the same bytes. -/
theorem load_save_normal {path : Path} {s t : Host}
    (hload : (load path).runOn s = (.ok history, t)) :
    ∃ text : String, history.render = .ok (text : RawText) ∧
      ∀ (target : Path) (h u : Host),
        (∀ failure, (history.save target).runOn h = (.error failure, u) →
          (Host.replaceFile target text).runOn h = (.error failure, u) ∧
          ((∃ fault, failure = .os fault) ∨ failure = .invalid .nullCharacter)) ∧
        ((history.save target).runOn h = (.ok (), u) →
          u.tree.readFile u.directory target = .ok text.toUTF8 ∧
          ∀ v : Host, v.tree = u.tree → v.directory = u.directory → v.Undisturbed .read target →
            ∃ again w, (load target).runOn v = (.ok again, w) ∧
              again.entries.Perm history.entries ∧ (∀ id, again.get? id = history.get? id) ∧
              ∀ (other : Path) (k x : Host),
                (again.save other).runOn k = (history.save other).runOn k ∧
                ((again.save other).runOn k = (.ok (), x) →
                  x.tree.readFile x.directory other = .ok text.toUTF8)) := by
  obtain ⟨source, hread⟩ := exists_read_of_load hload
  obtain ⟨text, hrender⟩ := exists_render_of_read hread
  have hsound := sound_of_read hread
  refine ⟨text, hrender, fun target h u => ⟨fun failure hsave => ?_, fun hsave => ?_⟩⟩
  · have hreplace := replaceFile_of_save hrender hsave
    refine ⟨hreplace, ?_⟩
    cases Host.ofFiles_replaceFile target (RawText.isText_ofString text) h failure u hreplace with
    | os fault => exact .inl ⟨fault, rfl⟩
    | nullCharacter => exact .inr rfl
  · refine ⟨readFile_of_save hrender hsave, fun v htree hdirectory hundisturbed => ?_⟩
    obtain ⟨again, w, hagain, hsame⟩ := hsound.load_of_save hsave htree hdirectory hundisturbed
    have hdistinct := (sound_of_load hagain).distinct
    have hrender' : again.render = .ok (text : RawText) :=
      (Same.render_eq hsame hdistinct hsound.distinct).trans hrender
    refine ⟨again, w, hagain, Same.perm hsame hdistinct hsound.distinct, hsame,
      fun other k x => ⟨?_, readFile_of_save hrender'⟩⟩
    rw [Same.save_eq hsame hdistinct hsound.distinct]

/-- A file with a comment, blanks and digits of other scripts, an underscore and two lines of one
workload is loaded, and what is loaded is saved as one plain line. -/
theorem load_save_normal_by_hand :
    ∃ (history again : History) (t u w : Host),
      (load (.read "/usage")).runOn
        (.holding "# by hand\r\n\u2003job\t٩٥ 1_0.50 nan7 +00042 \r\n\njob 95 1 2 7") =
          (.ok history, t) ∧
      (history.save (.read "copy")).runOn {} = (.ok (), u) ∧
      u.tree.readFile u.directory (.read "copy") = .ok "job 95 10.50 NaN7 42\n".toUTF8 ∧
      (load (.read "copy")).runOn u = (.ok again, w) ∧
      again.get? "job" = some ⟨95, .finite ⟨false, 1050, -2⟩, .nan false false 7, 42⟩ := by
  obtain ⟨t, hload⟩ := runOn_load (Host.holds_holding
    "# by hand\r\n\u2003job\t٩٥ 1_0.50 nan7 +00042 \r\n\njob 95 1 2 7")
  have hread : read (String.ofList (Text.foldReturns
      "# by hand\r\n\u2003job\t٩٥ 1_0.50 nan7 +00042 \r\n\njob 95 1 2 7".toList)) =
        .ok ⟨[("job", ⟨95, .finite ⟨false, 1050, -2⟩, .nan false false 7, 42⟩)]⟩ := by
    decide +kernel
  rw [hread] at hload
  have hrender : render ⟨[("job", ⟨95, .finite ⟨false, 1050, -2⟩, .nan false false 7, 42⟩)]⟩ =
      .ok (RawText.ofString "job 95 10.50 NaN7 42\n") := by
    decide +kernel
  obtain ⟨u, hsave, hundisturbed⟩ : ∃ u, (save
      ⟨[("job", ⟨95, .finite ⟨false, 1050, -2⟩, .nan false false 7, 42⟩)]⟩ (.read "copy")).runOn {} =
        (.ok (), u) ∧ u.Undisturbed .read (.read "copy") :=
    ⟨_, runOn_save hrender (Prod.ext (by decide +kernel) rfl), rfl⟩
  obtain ⟨text, htext, hnormal⟩ := load_save_normal hload
  obtain ⟨hfile, hagain⟩ := (hnormal (.read "copy") {} u).2 hsave
  obtain ⟨again, w, hloaded, -, hsame, -⟩ := hagain u rfl rfl hundisturbed
  rw [hrender, Except.ok.injEq] at htext
  rw [← RawText.ofString_injective htext] at hfile
  exact ⟨_, again, t, u, w, hload, hsave, hfile, hloaded, hsame "job"⟩

end MemoryLimit.History
