import Mathlib
import MemoryLimit.Proofs.Host.Failing
import MemoryLimit.Proofs.Host.Nulls
import MemoryLimit.Proofs.Host.Reading

/-!
# Directories that are made if need be

A directory that is made was there before, or there is nothing in it. So its making changes nothing
about what can be read in it, or be looked for there. One that is there already is made as well, if
nothing disturbs that.

## Main statements

* `Host.makeDirectory_cases` — a directory that was made was there before, or is fresh.
* `Host.child_of_makeDirectory` — what its making does not change.
* `Host.runOn_makeDirectory_of_has` — a directory that is there is made.
-/
namespace MemoryLimit

/-- The text of a path is no longer than that of a file in it. -/
theorem Path.utf8ByteSize_text_le_child {p : Path} {name : String} (hname : IsFileName name) :
    p.text.utf8ByteSize ≤ (p.child name).text.utf8ByteSize := by
  rw [text, text, names_child hname, slashes_child hname]
  by_cases hnames : p.names = []
  · by_cases hslashes : p.slashes = 0
    · have hpos : ".".utf8ByteSize ≤ name.utf8ByteSize := by
        rw [show ".".utf8ByteSize = 1 by decide, Nat.one_le_iff_ne_zero, ne_eq,
          String.utf8ByteSize_eq_zero_iff]
        exact hname.ne_empty
      simpa [hnames, hslashes] using hpos
    · simp [hnames, hslashes]
  · rw [String.intercalate_append_of_ne_nil hnames (by simp)]
    simp [hnames]
    omega

namespace Host

open MemoryLimit.Action (FailsByFault)

variable {h t : Host} {p : Path} {node : Node} {name : String}

/-! ## Making a directory -/

/-- A directory that was made was there before, or is fresh. -/
theorem makeDirectory_cases (hrun : (makeDirectory p).runOn h = (.ok (), t)) :
    h.SameGround t ∨ h.MakesFresh p t := by
  rw [makeDirectory] at hrun
  obtain ⟨_, u, hpass, hmake⟩ := Action.runOn_bind_eq_ok.1 hrun
  have hsame := sameGround_of_keeps (fun _ hP => keeps_pass hP.unobserving _ _) hpass
  rw [Action.runOn_onFault] at hmake
  split at hmake
  · rename_i fault v hchange
    obtain rfl := change_eq_error hchange
    obtain ⟨found, w, hfound, hend⟩ := Action.runOn_bind_eq_ok.1 hmake
    obtain ⟨rfl, -⟩ := isDirectory_eq_ok hfound
    split at hend
    · cases hend
      exact .inl hsame
    · cases hend
  · exact .inr (makesFresh_of_makeDirectory hsame hmake)

/-- There is nothing in a directory that was made. -/
theorem MakesFresh.get?_child (hwell : h.tree.WellFormed) (hfresh : h.MakesFresh p t)
    (hname : IsFileName name) : t.tree.get? ((p.child name).placeFrom t.directory) = none := by
  rw [hfresh.grows.directory_eq, Path.placeFrom_child hname, hfresh.grows.tree.same _ (by simp)]
  cases hnode : h.tree.get? (p.placeFrom h.directory ++ [name]) with
  | none => rfl
  | some node =>
    have hparent := hwell.get?_dropLast hnode
    rw [List.dropLast_concat, hfresh.free] at hparent
    cases hparent

/-- Making a directory makes no file in it unreadable, and makes no path to one too long. -/
theorem child_of_makeDirectory (hwell : h.tree.WellFormed) (hname : IsFileName name)
    (hshort : name.utf8ByteSize ≤ Tree.maxNameBytes)
    (hrun : (makeDirectory p).runOn h = (.ok (), t)) :
    (h.Decodable (p.child name) → t.Decodable (p.child name)) ∧
      (t.Overlong (p.child name) → h.Overlong (p.child name)) := by
  rcases makeDirectory_cases hrun with hsame | hfresh
  · exact ⟨(decodable_congr hsame.tree.symm hsame.directory_eq).2,
      (overlong_congr hsame.tree.symm hsame.directory_eq).1⟩
  · refine ⟨fun hp => decodable_of_get?_eq_none hp.hasNull (hfresh.get?_child hwell hname),
      fun hlong => ?_⟩
    exact overlong_of_le_text hlong.hasNull (hlong.le_text_of_directory hname hshort hfresh.has)

/-! ## Directories that are there -/

/-- A file is in a directory. -/
theorem Has.directory_of_child (hname : IsFileName name)
    (hhas : h.Has (p.child name) node) : h.Has p .directory := by
  obtain ⟨place, hlocate, -⟩ := find_eq_ok_iff.1 hhas.find
  rw [Tree.locate] at hlocate
  split at hlocate
  · cases hlocate
  · rename_i hshort
    rw [Path.names_child hname, Path.isAbsolute_child hname, List.foldlM_append, bind_eq_ok] at hlocate
    obtain ⟨parent, hparent, hstep⟩ := hlocate
    rw [List.foldlM_cons, bind_eq_ok] at hstep
    obtain ⟨next, hstep, -⟩ := hstep
    refine ⟨Path.hasNull_of_child hname hhas.hasNull,
      find_eq_ok_iff.2 ⟨parent, ?_, (Tree.step_eq_ok hstep).1⟩⟩
    have hlength := Path.utf8ByteSize_text_le_child (p := p) hname
    rw [Tree.locate, if_neg (by omega)]
    exact hparent

/-- Where nothing disturbs a host, nothing does so later. -/
theorem Evolves.quiet {R : Tree → Tree → Prop} (hevolves : h.Evolves R t)
    (hquiet : h.disturbances = []) : t.disturbances = [] := by
  rw [List.eq_nil_iff_forall_not_mem]
  intro d hd
  obtain ⟨e, he, -⟩ := hevolves.disturbances d hd
  rw [hquiet] at he
  cases he

/-- A call that nothing disturbs goes as it should. -/
theorem exists_runOn_pass (hquiet : h.disturbances = []) (call : Call) (p : Path) :
    ∃ t, (pass call p).runOn h = (.ok (), t) := by
  rw [pass, Action.runOn_bind_ok (runOn_disturb call p h), hquiet]
  exact ⟨_, rfl⟩

/-- A directory that is there is made, if nothing disturbs that. -/
theorem runOn_makeDirectory_of_has (hquiet : h.disturbances = []) (hhas : h.Has p .directory) :
    ∃ t, (makeDirectory p).runOn h = (.ok (), t) ∧ h.SameGround t := by
  obtain ⟨u, hpass⟩ := exists_runOn_pass hquiet .mkdir p
  have hsame := sameGround_of_keeps (fun _ hP => keeps_pass hP.unobserving _ _) hpass
  have hthere := hhas.of_sameGround hsame
  refine ⟨u, ?_, hsame⟩
  rw [makeDirectory, Action.runOn_bind_ok hpass, Action.runOn_onFault]
  have hfault : FailsByFault (change p Tree.makeDirectory) := failsByFault_change hhas.hasNull _
  cases hchange : (change p Tree.makeDirectory).runOn u with
  | mk outcome v =>
    cases outcome with
    | ok _ =>
      -- a directory is made only where there is nothing
      have hfree := (makesFresh_of_makeDirectory (.refl u) hchange).free
      rw [hthere.get?] at hfree
      cases hfree
    | error other =>
      obtain ⟨fault, rfl⟩ := hfault _ _ _ hchange
      obtain rfl := change_eq_error hchange
      rcases isDirectory_cases p v with ⟨found, hlook⟩ | ⟨hlong, -⟩
      · obtain ⟨-, hfound⟩ := isDirectory_eq_ok hlook
        obtain rfl := hfound.2 hthere
        change (isDirectory p >>= _).runOn v = _
        rw [Action.runOn_bind_ok hlook]
        rfl
      · exact absurd hlong hthere.not_overlong

/-- A directory is not made at a path that is none. -/
theorem runOn_makeDirectory_of_null (hquiet : h.disturbances = []) (hnull : p.hasNull = true) :
    ∃ t, (makeDirectory p).runOn h = (.error (.invalid .nullCharacter), t) := by
  obtain ⟨u, hpass⟩ := exists_runOn_pass hquiet .mkdir p
  refine ⟨u, ?_⟩
  rw [makeDirectory, Action.runOn_bind_ok hpass, Action.runOn_onFault, change, Action.runOn_bind,
    runOn_lookUp, if_pos hnull]

end Host

end MemoryLimit
