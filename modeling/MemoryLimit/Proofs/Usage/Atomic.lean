import Mathlib
import MemoryLimit.Proofs.Host.Atomic
import MemoryLimit.Proofs.Usage.File
import MemoryLimit.Proofs.Usage.Sorted

/-!
# Saving a history is all or nothing

Saving a history either puts all of it into its file, or leaves every file as it was. In both cases
nothing else of the tree changes, except that directories above the file may have been made. A saving
that fails removes the draft that it wrote; if that is refused, too, the draft is left.

## Main statements

* `History.save_atomic` — what a saving does to the tree, whatever goes wrong.
* `History.save_not_atomic` — a target that its own path leads through may become a directory, and a
  draft that cannot be removed stays.
-/
namespace MemoryLimit.History

variable {history : History} {target : Path} {h t : Host} {outcome : Except Failure Unit}

/-- A saving that failed leaves nothing but directories and the draft that could not be removed. -/
theorem tree_of_save_failed {failure : Failure}
    (hrun : (history.save target).runOn h = (.error failure, t)) :
    (∀ place, t.tree.get? place = h.tree.get? place ∨
      (target.parent.OnWay h.directory place ∧ h.tree.get? place = none ∧
        t.tree.get? place = some .directory) ∨ h.LeavesDraft target place t) ∧
    ∀ place other, h.LeavesDraft target place t → h.LeavesDraft target other t →
      place = other := by
  rw [save] at hrun
  rcases Action.runOn_bind_cases hrun with ⟨_, hrender, -⟩ | ⟨text, u, hrender, hrun⟩
  · -- the history has no text, so that nothing was called
    rw [Action.runOn_liftM, Prod.mk.injEq] at hrender
    obtain ⟨-, rfl⟩ := hrender
    refine ⟨fun place => .inl rfl, fun place _ hleaves => ?_⟩
    obtain ⟨bytes, hleft⟩ := hleaves.left
    rw [hleaves.free] at hleft
    cases hleft
  · rw [Action.runOn_liftM, Prod.mk.injEq] at hrender
    obtain ⟨-, rfl⟩ := hrender
    rcases Action.runOn_bind_cases hrun with ⟨_, hreplace, -⟩ | ⟨_, v, -, hreport⟩
    · exact Host.tree_of_replaceFile_failed hreplace
    · cases hreport

/-- A saving that did not fail has replaced the file by the text. -/
theorem tree_of_save (hrun : (history.save target).runOn h = (.ok (), t)) :
    ∃ text u, history.render = .ok text ∧
      h.tree.OnlyMakes (target.parent.OnWay h.directory) u ∧
      (∀ place, place ≠ target.placeFrom h.directory → t.tree.get? place = u.get? place) ∧
      text.isText = true ∧ t.tree.readFile t.directory target = .ok text.string.toUTF8 := by
  rw [save, Action.runOn_bind_eq_ok] at hrun
  obtain ⟨text, u, hrender, hrun⟩ := hrun
  rw [Action.runOn_liftM, Prod.mk.injEq] at hrender
  obtain ⟨hrender, rfl⟩ := hrender
  obtain ⟨_, v, hreplace, hreport⟩ := Action.runOn_bind_eq_ok.1 hrun
  cases hreport
  obtain ⟨htext, -, hbytes⟩ := Host.replaceFile_bytes hreplace
  obtain ⟨u, hmade, ⟨_, herror, -⟩ | ⟨-, -, hsame⟩⟩ := Host.replaceFile_cases hreplace
  · cases herror
  · exact ⟨text, u.tree, hrender, hmade.tree, hsame, htext, hbytes⟩

/-- **Saving a history is all or nothing.** If it fails, for whatever reason, every file has the bytes
that it had, and nothing changed anywhere but that directories may have been made where there was
nothing, on the way to the directory of the target; the draft is removed, and only if that is refused,
too, it stays as the one file that there was not before, beside the target. The target itself is as it
was, unless its path leads through it on that way, which takes a step upwards. If saving does not fail,
the target holds the line of every record, in the order of the names, and the rest is as before but
for such directories. A history with the same records that came in another order is saved alike. -/
theorem save_atomic (hdistinct : history.Distinct) (target : Path) (h : Host) :
    (∃ (outcome : Except Failure Unit) (t : Host), (history.save target).runOn h = (outcome, t) ∧
      ((∃ failure, outcome = .error failure ∧
          (∀ place, t.tree.get? place = h.tree.get? place ∨
            (target.parent.OnWay h.directory place ∧ h.tree.get? place = none ∧
              t.tree.get? place = some .directory) ∨
            h.LeavesDraft target place t) ∧
          (∀ place other, h.LeavesDraft target place t → h.LeavesDraft target other t →
            place = other) ∧
          (∀ place bytes, h.tree.get? place = some (.file bytes) →
            t.tree.get? place = some (.file bytes)) ∧
          ((∀ d ∈ h.disturbances, d.call ≠ .unlink) →
            ∀ place bytes, t.tree.get? place = some (.file bytes) ↔
              h.tree.get? place = some (.file bytes)) ∧
          ((∀ name ∈ target.names, name ≠ "..") →
            t.tree.get? (target.placeFrom h.directory) =
              h.tree.get? (target.placeFrom h.directory))) ∨
        outcome = .ok () ∧
          (∃ lines : List String,
            t.tree.readFile t.directory target =
              .ok (String.join (lines.map (· ++ "\n"))).toUTF8 ∧
            List.Forall₂ (fun entry (line : String) => writeLine entry.1 entry.2 = .ok (line : RawText))
              history.sorted lines) ∧
          history.sorted.Perm history.entries ∧
          history.sorted.Pairwise (fun a b => a.1 < b.1) ∧
          ∀ place, place ≠ target.placeFrom h.directory →
            t.tree.get? place = h.tree.get? place ∨
              target.parent.OnWay h.directory place ∧ h.tree.get? place = none ∧
                t.tree.get? place = some .directory)) ∧
    ∀ other : History, other.Distinct → (∀ id, other.get? id = history.get? id) →
      (other.save target).runOn h = (history.save target).runOn h := by
  obtain ⟨⟨outcome, t⟩, hrun⟩ : ∃ result, (history.save target).runOn h = result := ⟨_, rfl⟩
  refine ⟨⟨outcome, t, hrun, ?_⟩, fun other hother hsame => ?_⟩
  · cases outcome with
    | error failure =>
      obtain ⟨hplaces, hone⟩ := tree_of_save_failed hrun
      have hkept : ∀ place bytes, h.tree.get? place = some (.file bytes) →
          t.tree.get? place = some (.file bytes) := by
        intro place bytes hfile
        rcases hplaces place with hsame | ⟨-, hfree, -⟩ | hleaves
        · rw [hsame, hfile]
        · simp [hfree] at hfile
        · simp [hleaves.free] at hfile
      refine .inl ⟨failure, rfl, hplaces, hone, hkept, fun hquiet place bytes => ?_, fun hnames => ?_⟩
      · refine ⟨fun hfile => ?_, hkept place bytes⟩
        rcases hplaces place with hsame | ⟨-, -, hnew⟩ | hleaves
        · rw [← hsame, hfile]
        · simp [hnew] at hfile
        · obtain ⟨d, hd, hcall⟩ := hleaves.refused
          exact absurd hcall (hquiet d hd)
      · rcases hplaces (target.placeFrom h.directory) with hsame | ⟨hway, -⟩ | hleaves
        · exact hsame
        · exact absurd hway (Path.not_onWay_parent hnames h.directory)
        · exact absurd rfl hleaves.ne
    | ok _ =>
      obtain ⟨text, u, hrender, hmade, hsame, htext, hread⟩ := tree_of_save hrun
      obtain ⟨lines, rfl, hlines⟩ := exists_lines_of_render hrender htext
      rw [RawText.string_ofString] at hread
      refine .inr ⟨rfl, ⟨lines, hread, hlines⟩, history.sorted_perm, hdistinct.pairwise_sorted,
        fun place hplace => ?_⟩
      rw [hsame place hplace]
      exact hmade place
  · rw [Same.save_eq hsame hother hdistinct]

/-- Two records are saved in one order and in the other, into a directory that is made for them; and a
saving that fails at its last step leaves no file. -/
theorem save_atomic_two :
    (∃ t, (save ⟨[("b", ⟨95, .ofInt 1, .ofInt 2, 7⟩), ("a", ⟨0, .ofInt 3, .ofInt 4, 9⟩)]⟩
          (.read "runs/usage")).runOn {} = (.ok (), t) ∧
        t.tree.readFile t.directory (.read "runs/usage") =
          .ok "a 0 3 4 9\nb 95 1 2 7\n".toUTF8 ∧
        (save ⟨[("a", ⟨0, .ofInt 3, .ofInt 4, 9⟩), ("b", ⟨95, .ofInt 1, .ofInt 2, 7⟩)]⟩
          (.read "runs/usage")).runOn {} = (.ok (), t)) ∧
    ∃ failure t, (save ⟨[("a", ⟨0, .ofInt 3, .ofInt 4, 9⟩)]⟩ (.read "runs/usage")).runOn
        { disturbances := [{ call := .replace, effect := .fail (.ofCode 13) }] } =
          (.error failure, t) ∧
      ∀ place bytes, t.tree.get? place ≠ some (.file bytes) := by
  constructor
  · have hdistinct : Distinct
        ⟨[("b", ⟨95, .ofInt 1, .ofInt 2, 7⟩), ("a", ⟨0, .ofInt 3, .ofInt 4, 9⟩)]⟩ := by
      decide
    obtain ⟨⟨outcome, t, hrun, hcases⟩, hother⟩ :=
      save_atomic hdistinct (.read "runs/usage") {}
    have hab : RawText.ofString "a" < RawText.ofString "b" := by decide
    have hsorted : History.sorted
        ⟨[("b", ⟨95, .ofInt 1, .ofInt 2, 7⟩), ("a", ⟨0, .ofInt 3, .ofInt 4, 9⟩)]⟩ =
          [(RawText.ofString "a", ⟨0, .ofInt 3, .ofInt 4, 9⟩),
            (RawText.ofString "b", ⟨95, .ofInt 1, .ofInt 2, 7⟩)] :=
      ((sorted_perm _).trans (.swap _ _ _)).eq_of_pairwise
        (fun _ _ _ _ hlt hgt => absurd hgt (RawText.lt_asymm hlt))
        hdistinct.pairwise_sorted (List.pairwise_pair.2 hab)
    have ha : writeLine "a" ⟨0, .ofInt 3, .ofInt 4, 9⟩ = .ok (RawText.ofString "a 0 3 4 9") := by
      decide +kernel
    have hb : writeLine "b" ⟨95, .ofInt 1, .ofInt 2, 7⟩ = .ok (RawText.ofString "b 95 1 2 7") := by
      decide +kernel
    have hrender : History.render
        ⟨[("b", ⟨95, .ofInt 1, .ofInt 2, 7⟩), ("a", ⟨0, .ofInt 3, .ofInt 4, 9⟩)]⟩ =
          .ok (RawText.ofString "a 0 3 4 9\nb 95 1 2 7\n") := by
      rw [render, hsorted]
      decide +kernel
    have hsave := runOn_save hrender (Prod.ext (by decide +kernel) rfl :
      (Host.replaceFile (.read "runs/usage") "a 0 3 4 9\nb 95 1 2 7\n").runOn {} = (.ok (), _))
    obtain ⟨rfl, -⟩ := Prod.mk.inj (hsave.symm.trans hrun)
    rcases hcases with ⟨_, herror, -⟩ | ⟨-, ⟨lines, hread, hlines⟩, -⟩
    · cases herror
    have hsame := hother
      ⟨[("a", ⟨0, .ofInt 3, .ofInt 4, 9⟩), ("b", ⟨95, .ofInt 1, .ofInt 2, 7⟩)]⟩
      (by decide) (get?_eq_of_perm hdistinct (.swap _ _ _))
    refine ⟨t, hrun, ?_, hsame.trans hrun⟩
    rw [hsorted] at hlines
    obtain _ | ⟨hfirst, _ | ⟨hsecond, _ | _⟩⟩ := hlines
    rw [ha, Except.ok.injEq] at hfirst
    rw [hb, Except.ok.injEq] at hsecond
    rw [hread, ← RawText.ofString_injective hfirst, ← RawText.ofString_injective hsecond]
    rfl
  · have hdistinct : Distinct ⟨[("a", ⟨0, .ofInt 3, .ofInt 4, 9⟩)]⟩ := by decide
    obtain ⟨⟨outcome, t, hrun, hcases⟩, -⟩ := save_atomic hdistinct (.read "runs/usage")
      { disturbances := [{ call := .replace, effect := .fail (.ofCode 13) }] }
    have herror : outcome = .error (.os (.ofCode 13)) :=
      (congrArg Prod.fst hrun).symm.trans (by decide +kernel)
    rcases hcases with ⟨failure, rfl, -, -, -, hfiles, -⟩ | ⟨hok, -⟩
    · refine ⟨failure, t, hrun, fun place bytes hfile => ?_⟩
      have hbefore := (hfiles (by simp) place bytes).1 hfile
      rw [Tree.get?] at hbefore
      split at hbefore <;> cases hbefore
    · cases herror.symm.trans hok

/-- A target that its own path leads through is a directory after it could not be saved; and a draft
that can neither be moved nor removed is a file afterwards, where there was none. -/
theorem save_not_atomic :
    (∃ failure t, (save {} (.read "x/../x")).runOn {} = (.error failure, t) ∧
      (Path.read "x/../x").placeFrom [] = ["x"] ∧ Tree.get? {} ["x"] = none ∧
      t.tree.get? ["x"] = some .directory) ∧
    ∃ failure t, (save {} (.read "usage")).runOn
        { disturbances := [{ call := .replace, effect := .fail (.ofCode 5) },
            { call := .unlink, effect := .fail (.ofCode 5) }] } = (.error failure, t) ∧
      t.tree.get? [".usage.00000001"] = some (.file .empty) := by
  constructor
  · refine ⟨.os (.ofCode OsFault.isDirectory (some "x/../x")),
      ((save {} (.read "x/../x")).runOn {}).2, Prod.ext ?_ rfl, ?_, ?_, ?_⟩
    all_goals decide +kernel
  · refine ⟨.os (.ofCode 5), ((save {} (.read "usage")).runOn
        { disturbances := [{ call := .replace, effect := .fail (.ofCode 5) },
            { call := .unlink, effect := .fail (.ofCode 5) }] }).2, Prod.ext ?_ rfl, ?_⟩
    all_goals decide +kernel

end MemoryLimit.History
