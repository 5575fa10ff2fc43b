import MemoryLimit.Host.Resolve

/-!
# Files are found again

A path leads to the same place as long as the directories that it passes are kept. No call that
writes or moves a file takes a directory away, so the bytes that were written are read back
through the same path.

## Main statements

* `Tree.locate_mono` — a path leads to the same place when no directory is lost.
* `Tree.readFile_writeFile`, `Tree.readFile_moveFile` — what is read after a file was written or
  moved.
-/
namespace MemoryLimit

/-- Both computations succeed if the two together do. -/
theorem bind_eq_ok {ε α β : Type} {x : Except ε α} {f : α → Except ε β} {b : β} :
    x >>= f = .ok b ↔ ∃ a, x = .ok a ∧ f a = .ok b := by
  cases x <;> simp [bind, Except.bind]

/-- A computation succeeds as before if its failures are told otherwise. -/
theorem mapError_eq_ok {ε δ α : Type} {x : Except ε α} {f : ε → δ} {a : α} :
    x.mapError f = .ok a ↔ x = .ok a := by
  cases x with
  | error e => exact iff_of_false (by rintro ⟨⟩) (by rintro ⟨⟩)
  | ok b =>
    constructor <;> intro h
    · cases h
      rfl
    · cases h
      rfl

namespace Tree

variable {t u : Tree} {directory place : Place} {p source target : Path} {bytes : ByteArray}

/-- Every directory of a tree is one of another tree. -/
def KeepsDirectories (t u : Tree) : Prop :=
  ∀ place, t.get? place = some .directory → u.get? place = some .directory

/-- A file in a place where there was no directory takes none away. -/
theorem keepsDirectories_insert (h : t.isDirectory place = false) (bytes : ByteArray) :
    t.KeepsDirectories (t.insert place (.file bytes)) := by
  intro q hq
  have hne : q ≠ place := by
    rintro rfl
    simp [isDirectory, hq] at h
  rw [get?_insert, if_neg hne, hq]
  split <;> rfl

theorem keepsDirectories_erase (h : t.isDirectory place = false) :
    t.KeepsDirectories (t.erase place) := by
  intro q hq
  have hne : q ≠ place := by
    rintro rfl
    simp [isDirectory, hq] at h
  rw [get?_erase, if_neg hne, hq]
  split <;> rfl

theorem KeepsDirectories.trans {v : Tree} (h : t.KeepsDirectories u) (h' : u.KeepsDirectories v) :
    t.KeepsDirectories v :=
  fun place hplace => h' place (h place hplace)

/-- A step that can be taken needs nothing but a directory. -/
theorem step_mono (hkeeps : t.KeepsDirectories u) {name : String} {next : Place}
    (h : t.step place name = .ok next) : u.step place name = .ok next := by
  rw [step] at h ⊢
  cases hnode : t.get? place with
  | none => simp [hnode] at h
  | some node =>
    cases node with
    | file => simp [hnode] at h
    | directory =>
      rw [hnode] at h
      rw [hkeeps place hnode]
      exact h

/-- Steps that can be taken one after the other need nothing but directories. -/
theorem foldlM_step_mono (hkeeps : t.KeepsDirectories u) {names : List String} {start : Place}
    (h : names.foldlM t.step start = .ok place) : names.foldlM u.step start = .ok place := by
  induction names generalizing start with
  | nil => exact h
  | cons name rest ih =>
    rw [List.foldlM_cons, bind_eq_ok] at h ⊢
    obtain ⟨next, hstep, hrest⟩ := h
    exact ⟨next, step_mono hkeeps hstep, ih hrest⟩

/-- **A path leads to the same place when no directory is lost.** -/
theorem locate_mono (hkeeps : t.KeepsDirectories u) (h : t.locate directory p = .ok place) :
    u.locate directory p = .ok place := by
  rw [locate] at h ⊢
  split at h
  · cases h
  · rename_i hshort
    rw [if_neg hshort]
    exact foldlM_step_mono hkeeps h

/-- The bytes of a file are those of the node that the path leads to. -/
theorem readFile_eq_ok_iff :
    t.readFile directory p = .ok bytes ↔
      ∃ place, t.locate directory p = .ok place ∧ t.get? place = some (.file bytes) := by
  rw [readFile, bind_eq_ok]
  constructor
  · rintro ⟨node, hfind, hnode⟩
    rw [find, bind_eq_ok] at hfind
    obtain ⟨place, hplace, hget⟩ := hfind
    refine ⟨place, hplace, ?_⟩
    cases hat : t.get? place with
    | none => simp [hat, throw, throwThe, MonadExceptOf.throw] at hget
    | some found =>
      rw [hat] at hget
      cases hget
      cases node with
      | directory => cases hnode
      | file other =>
        cases hnode
        rfl
  · rintro ⟨place, hplace, hget⟩
    refine ⟨.file bytes, ?_, rfl⟩
    rw [find, bind_eq_ok]
    exact ⟨place, hplace, by rw [hget]; rfl⟩

/-- **What was written is read.** -/
theorem readFile_writeFile (h : t.writeFile directory p bytes = .ok u) :
    u.readFile directory p = .ok bytes := by
  rw [writeFile, bind_eq_ok] at h
  obtain ⟨place, hlocate, hwrite⟩ := h
  split at hwrite
  · cases hwrite
  · rename_i hplace
    cases hwrite
    have hplace' : t.isDirectory place = false := by simpa using hplace
    have hroot : place ≠ [] := by
      rintro rfl
      cases hplace'
    refine readFile_eq_ok_iff.2
      ⟨place, locate_mono (keepsDirectories_insert hplace' bytes) hlocate, ?_⟩
    rw [get?_insert, if_neg hroot, if_pos rfl]

/-- **What was moved is read at the target.** -/
theorem readFile_moveFile (h : t.moveFile directory source target = .ok u)
    (hsource : t.readFile directory source = .ok bytes) :
    u.readFile directory target = .ok bytes := by
  simp only [moveFile, bind_eq_ok] at h
  obtain ⟨moved, hmoved, start, hstart, place, hlocate, hmove⟩ := h
  rw [hsource] at hmoved
  cases hmoved
  obtain ⟨start', hstart', hfile⟩ := readFile_eq_ok_iff.1 hsource
  rw [hstart] at hstart'
  cases hstart'
  split at hmove
  · cases hmove
  · split at hmove
    · cases hmove
    · rename_i hplace
      cases hmove
      have hplace' : t.isDirectory place = false := by simpa using hplace
      have hroot : place ≠ [] := by
        rintro rfl
        cases hplace'
      have herase : t.KeepsDirectories (t.erase start) :=
        keepsDirectories_erase (by simp [isDirectory, hfile])
      have hplace'' : (t.erase start).isDirectory place = false := by
        rw [isDirectory, get?_erase, if_neg hroot]
        split
        · rfl
        · exact hplace'
      refine readFile_eq_ok_iff.2
        ⟨place, locate_mono (herase.trans (keepsDirectories_insert hplace'' bytes)) hlocate, ?_⟩
      rw [get?_insert, if_neg hroot, if_pos rfl]

end Tree

end MemoryLimit
