import MemoryLimit.Proofs.Host.Nodes

/-!
# What becomes of reading a file

Reading a file gives a text, or fails by a fault of the operating system, or fails in one of two other
ways: the bytes are no text, or the path is none. Which it is depends on the schedule and the file
alone.

## Main definitions

* `Host.Legible` — reading a file does not fail but by a fault.
* `Failure.OfText` — the other failures of reading.

## Main statements

* `Host.readText_cases` — what becomes of reading a file.
-/
namespace MemoryLimit

/-- A failure to read that is no fault: the bytes are no text, or the path is none. -/
inductive Failure.OfText : Failure → Prop
  | undecodable : OfText .undecodable
  | nullCharacter : OfText (.invalid .nullCharacter)

namespace Host

variable {h t : Host} {p : Path}

/-- A path, and the bytes of the file at it, if there is one, are a text. -/
structure Decodable (h : Host) (p : Path) : Prop where
  hasNull : p.hasNull = false
  isSome : ∀ bytes, h.tree.readFile h.directory p = .ok bytes → (String.fromUTF8? bytes).isSome

/-- Whether the bytes at a path are a text depends on the tree and the working directory alone. -/
theorem decodable_congr (htree : t.tree = h.tree) (hdirectory : t.directory = h.directory) :
    t.Decodable p ↔ h.Decodable p := by
  constructor
  · intro hp
    refine ⟨hp.hasNull, ?_⟩
    rw [← htree, ← hdirectory]
    exact hp.isSome
  · intro hp
    refine ⟨hp.hasNull, ?_⟩
    rw [htree, hdirectory]
    exact hp.isSome

theorem has_file_iff {bytes : ByteArray} :
    h.Has p (.file bytes) ↔ p.hasNull = false ∧ h.tree.readFile h.directory p = .ok bytes := by
  rw [Tree.readFile_eq_ok_iff, ← find_eq_ok_iff]
  exact ⟨fun hhas => ⟨hhas.hasNull, hhas.find⟩, fun hread => ⟨hread.1, hread.2⟩⟩

/-- Bytes that are no text are those of a file. -/
theorem exists_has_of_not_decodable (hnull : p.hasNull = false) (hnot : ¬ h.Decodable p) :
    ∃ bytes, h.Has p (.file bytes) := by
  by_contra hnone
  refine hnot ⟨hnull, fun bytes hbytes => ?_⟩
  exact absurd ⟨bytes, has_file_iff.2 ⟨hnull, hbytes⟩⟩ hnone

/-- Where there is nothing at a path, there are no bytes that are no text. -/
theorem decodable_of_get?_eq_none (hnull : p.hasNull = false)
    (hnone : h.tree.get? (p.placeFrom h.directory) = none) : h.Decodable p := by
  by_contra hnot
  obtain ⟨bytes, hhas⟩ := exists_has_of_not_decodable hnull hnot
  have hnode := hhas.get?
  rw [hnone] at hnode
  cases hnode

/-- What is written to a file is a text. -/
theorem Decodable.of_writeText {text : String} (hp : h.Decodable p)
    (hrun : (writeText p text).runOn h = (.ok (), t)) : t.Decodable p := by
  rw [writeText, Action.runOn_bind_ok (runOn_disturb .write p h)] at hrun
  split at hrun
  · cases hrun
  · cases hrun
    refine (decodable_congr ?_ ?_).2 hp <;> rfl
  · have hhas := has_of_writeFile hrun
    refine ⟨hp.hasNull, fun bytes hbytes => ?_⟩
    have heq := hhas.unique (has_file_iff.2 ⟨hp.hasNull, hbytes⟩)
    injection heq with heq
    have hdecode := decode_toUTF8 text
    rw [decode, heq] at hdecode
    split at hdecode
    · rename_i hsome
      rw [hsome, Option.isSome_some]
    · cases hdecode

/-- The next reading of a path is left to the file tree: it is not refused and not answered in
another way. -/
def LeavesReading (h : Host) (p : Path) : Prop :=
  ∀ effect, (Disturbance.strike .read p.name h.disturbances).1 = some effect →
    effect = .ignore ∨ ∃ fault, effect = .lose fault

/-- What is read at a path is a text, unless the reading is disturbed. -/
def Legible (h : Host) (p : Path) : Prop :=
  h.LeavesReading p → h.Decodable p

/-- Where nothing disturbs the reading of a file, it is read as it is. -/
theorem not_legible_of_quiet (hquiet : h.disturbances = []) (hnot : ¬ h.Decodable p) :
    ¬ h.Legible p := by
  intro hlegible
  refine hnot (hlegible fun effect heffect => ?_)
  rw [hquiet] at heffect
  cases heffect

/-- What becomes of opening a file when nothing disturbs it. -/
theorem openText_cases (p : Path) (h : Host) :
    (∃ text, (openText p).runOn h = (.ok text, h) ∧ h.Decodable p) ∨
    (∃ fault, (openText p).runOn h = (.error (.os fault), h) ∧ h.Decodable p) ∨
    ∃ failure, (openText p).runOn h = (.error failure, h) ∧ failure.OfText ∧ ¬ h.Decodable p := by
  rw [openText, Action.runOn_bind, runOn_lookUp]
  cases hnull : p.hasNull with
  | true => exact .inr (.inr ⟨_, rfl, .nullCharacter, fun hp => by simp [hp.hasNull] at hnull⟩)
  | false =>
    rw [if_neg (by simp)]
    cases hfile : h.tree.readFile h.directory p with
    | error code => exact .inr (.inl ⟨_, rfl, hnull, by simp [hfile]⟩)
    | ok bytes =>
      simp only [Except.mapError, Action.runOn_bind, Action.runOn_liftM, decode]
      cases htext : String.fromUTF8? bytes with
      | some text =>
        refine .inl ⟨_, rfl, hnull, fun found hfound => ?_⟩
        rw [hfile] at hfound
        cases hfound
        rw [htext, Option.isSome_some]
      | none =>
        refine .inr (.inr ⟨_, rfl, .undecodable, fun hp => ?_⟩)
        have hsome := hp.isSome bytes hfile
        rw [htext] at hsome
        cases hsome

/-- **What becomes of reading a file**: a text or a fault if the file is legible, and another failure
otherwise. -/
theorem readText_cases (p : Path) (h : Host) :
    (∃ text t, (readText p).runOn h = (.ok text, t) ∧ h.Legible p) ∨
    (∃ fault t, (readText p).runOn h = (.error (.os fault), t) ∧ h.Legible p) ∨
    ∃ failure t, (readText p).runOn h = (.error failure, t) ∧ failure.OfText ∧ ¬ h.Legible p := by
  have hleft : ∀ u : Host, u.tree = h.tree → u.directory = h.directory → h.LeavesReading p →
      (∃ text t, (openText p).runOn u = (.ok text, t) ∧ h.Legible p) ∨
      (∃ fault t, (openText p).runOn u = (.error (.os fault), t) ∧ h.Legible p) ∨
      ∃ failure t, (openText p).runOn u = (.error failure, t) ∧ failure.OfText ∧
        ¬ h.Legible p := by
    intro u htree hdirectory hleaves
    have hdecodable := decodable_congr (p := p) htree hdirectory
    rcases openText_cases p u with ⟨text, hrun, hp⟩ | ⟨fault, hrun, hp⟩ | ⟨failure, hrun, hkind, hp⟩
    · exact .inl ⟨text, u, hrun, fun _ => hdecodable.1 hp⟩
    · exact .inr (.inl ⟨fault, u, hrun, fun _ => hdecodable.1 hp⟩)
    · exact .inr (.inr ⟨failure, u, hrun, hkind, fun hlegible =>
        hp (hdecodable.2 (hlegible hleaves))⟩)
  have hdisturbed : ∀ effect, (Disturbance.strike .read p.name h.disturbances).1 = some effect →
      (effect ≠ .ignore ∧ ∀ fault, effect ≠ .lose fault) → h.Legible p := by
    intro effect heffect hne hleaves
    rcases hleaves effect heffect with hignored | ⟨fault, hlost⟩
    · exact absurd hignored hne.1
    · exact absurd hlost (hne.2 fault)
  rw [readText, Action.runOn_bind_ok (runOn_disturb .read p h)]
  cases heffect : (Disturbance.strike .read p.name h.disturbances).1 with
  | none => exact hleft _ rfl rfl (by simp [LeavesReading, heffect])
  | some effect =>
    cases effect with
    | fail fault => exact .inr (.inl ⟨fault, _, rfl, hdisturbed _ heffect (by simp)⟩)
    | answer text => exact .inl ⟨text, _, rfl, hdisturbed _ heffect (by simp)⟩
    | lose fault => exact hleft _ rfl rfl (by simp [LeavesReading, heffect])
    | ignore => exact hleft _ rfl rfl (by simp [LeavesReading, heffect])

end Host

end MemoryLimit
