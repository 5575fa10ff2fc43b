import Mathlib
import MemoryLimit.Proofs.Host.Making
import MemoryLimit.Proofs.Trial.Removal

/-!
# Why there is no leaf

Whatever refuses a step on the way to a leaf is told in one way: groups are unavailable. Two things
are not told so. Where the list of the process's groups or the list of controllers is read, bytes
that are no text are another failure, and a path that is too long cannot be looked for.

## Main definitions

* `Failure.IsUnavailable` — the way in which refusals are told.
* `Settings.readOn`, `Settings.soughtOn` — the paths that are read, and those that are looked for.
* `Settings.ReadyOn` — there is a subtree to make groups in.
* `Settings.Refuses` — how a failure to make a leaf comes about.

## Main statements

* `delegatedRoot_cases` — what becomes of looking for the subtree.
* `Leaf.setLimits_failed` — writing the limits of a leaf fails in one way only.
* `Leaf.create_refused` — what becomes of a leaf that is not made.
-/
namespace MemoryLimit

open MemoryLimit.Action (FailsAs FailsByFault Keeps)

variable {h t u : Host} {p : Path} {settings : Settings} {failure : Failure}

/-! ## Failures that are told in one way -/

/-- Groups are unavailable. -/
def Failure.IsUnavailable (failure : Failure) : Prop :=
  ∃ cause, failure = .unavailable cause

/-- Faults that are told in one way are no failures of another kind. -/
theorem Action.onFault_unavailable_cases {σ α : Type} {x : Action σ α} {f : OsFault → Unavailable}
    {s s' : σ} {e : Failure}
    (hrun : (x.onFault fun fault => throw (.unavailable (f fault))).runOn s = (.error e, s')) :
    e.IsUnavailable ∨ x.runOn s = (.error e, s') ∧ ∀ fault, e ≠ .os fault := by
  rw [runOn_onFault] at hrun
  split at hrun
  · cases hrun
    exact .inl ⟨_, rfl⟩
  · rename_i hnot
    refine .inr ⟨hrun, ?_⟩
    rintro fault rfl
    exact hnot fault s' hrun

/-- An action that fails by faults only fails in one way, if they are all told so. -/
theorem Action.isUnavailable_onFault {σ α : Type} {x : Action σ α} (hx : FailsByFault x)
    (f : OsFault → Unavailable) :
    FailsAs Failure.IsUnavailable (x.onFault fun fault => throw (.unavailable (f fault))) := by
  intro s e s' hrun
  rcases onFault_unavailable_cases hrun with htold | ⟨hfailed, hne⟩
  · exact htold
  · obtain ⟨fault, rfl⟩ := hx s e s' hfailed
    exact absurd rfl (hne fault)

/-- What becomes of reading a file whose faults are told in one way. -/
theorem readText_unavailable_cases (f : OsFault → Unavailable) (p : Path) (h : Host) :
    (∃ text t, ((Host.readText p).onFault fun fault => throw (.unavailable (f fault))).runOn h =
      (.ok text, t) ∧ h.Legible p) ∨
    (∃ cause t, ((Host.readText p).onFault fun fault => throw (.unavailable (f fault))).runOn h =
      (.error (.unavailable cause), t) ∧ h.Legible p) ∨
    ∃ failure t, ((Host.readText p).onFault fun fault => throw (.unavailable (f fault))).runOn h =
      (.error failure, t) ∧ failure.OfText ∧ ¬ h.Legible p := by
  rw [Action.runOn_onFault]
  rcases Host.readText_cases p h with ⟨text, t, hread, hlegible⟩ | ⟨fault, t, hread, hlegible⟩ |
    ⟨failure, t, hread, hkind, hnot⟩
  · exact .inl ⟨text, t, by rw [hread], hlegible⟩
  · exact .inr (.inl ⟨f fault, t, by rw [hread]; rfl, hlegible⟩)
  · refine .inr (.inr ⟨failure, t, ?_, hkind, hnot⟩)
    rw [hread]
    cases hkind <;> rfl

/-! ## Looking for the subtree -/

namespace Settings

/-- The list of the groups of this process. -/
def groupListOn (settings : Settings) (h : Host) : Path :=
  (settings.processRoot.child (toString h.processId)).child "cgroup"

/-- The list of the controllers that our groups may use. -/
def controllersOn (settings : Settings) (h : Host) : Path :=
  (settings.parentOn h).child ControlFile.controllers

/-- The files that are read before a leaf is made. -/
def readOn (settings : Settings) (h : Host) : List Path :=
  [settings.groupListOn h, settings.controllersOn h]

/-- The paths that are looked for before a leaf is made. -/
def soughtOn (settings : Settings) (h : Host) : List Path :=
  [settings.groupMount.child ControlFile.controllers, settings.rootOn h, settings.controllersOn h]

/-- How a failure to make a leaf comes about. -/
inductive Refuses (settings : Settings) (h : Host) : Failure → Prop
  /-- Groups are unavailable. -/
  | unavailable (cause : Unavailable) : Refuses settings h (.unavailable cause)
  /-- The bytes of a file that is read are no text, or its path is none. -/
  | garbled {failure : Failure} {p : Path} (kind : failure.OfText) (mem : p ∈ settings.readOn h)
      (not_decodable : ¬ h.Decodable p) : Refuses settings h failure
  /-- A path is too long to be looked for. -/
  | overlong {p : Path} (fault : OsFault) (mem : p ∈ settings.soughtOn h) (overlong : h.Overlong p) :
      Refuses settings h (.os fault)

/-- There is a subtree to make groups in, on a mount of the unified hierarchy. -/
structure ReadyOn (settings : Settings) (h : Host) : Prop where
  mount : ∃ node, h.Has (settings.groupMount.child ControlFile.controllers) node
  root : h.Has (settings.rootOn h) .directory

end Settings

/-- What becomes of looking for the group of this process. -/
theorem ownGroup_cases (settings : Settings) (h : Host) :
    (∃ group t, (ownGroup settings.processRoot settings.groupMount).runOn h = (.ok group, t) ∧
      h.Legible (settings.groupListOn h)) ∨
    (∃ cause t, (ownGroup settings.processRoot settings.groupMount).runOn h =
      (.error (.unavailable cause), t) ∧ h.Legible (settings.groupListOn h)) ∨
    ∃ failure t, (ownGroup settings.processRoot settings.groupMount).runOn h =
      (.error failure, t) ∧ failure.OfText ∧ ¬ h.Legible (settings.groupListOn h) := by
  rw [ownGroup, Action.runOn_bind_ok (Action.runOn_get h), groupOf, ← Settings.groupListOn]
  rcases readText_unavailable_cases (.unreadable (settings.groupListOn h).text)
    (settings.groupListOn h) h with ⟨text, t, hread, hlegible⟩ | ⟨cause, t, hread, hlegible⟩ |
    ⟨failure, t, hread, hkind, hnot⟩
  · rw [Action.runOn_bind_ok hread]
    split
    · exact .inl ⟨_, t, rfl, hlegible⟩
    · exact .inr (.inl ⟨_, t, rfl, hlegible⟩)
  · exact .inr (.inl ⟨cause, t, Action.runOn_bind_error hread, hlegible⟩)
  · exact .inr (.inr ⟨failure, t, Action.runOn_bind_error hread, hkind, hnot⟩)

/-- **Where this process lives is reported**, whatever cannot be found out about it, unless the list
of its groups is no text. -/
theorem reportOwnGroup_cases (settings : Settings) (root : Path) (h : Host) :
    (∃ t, (reportOwnGroup settings root).runOn h = (.ok (), t) ∧
      h.Legible (settings.groupListOn h)) ∨
    ∃ failure t, (reportOwnGroup settings root).runOn h = (.error failure, t) ∧ failure.OfText ∧
      ¬ h.Legible (settings.groupListOn h) := by
  rw [reportOwnGroup, Action.runOn_bind, Action.runOn_tryCatch, Action.runOn_map]
  rcases ownGroup_cases settings h with ⟨group, t, hown, hlegible⟩ | ⟨cause, t, hown, hlegible⟩ |
    ⟨failure, t, hown, hkind, hnot⟩
  · rw [hown]
    refine .inl ?_
    dsimp only [Except.map]
    split <;> exact ⟨_, rfl, hlegible⟩
  · rw [hown]
    exact .inl ⟨_, rfl, hlegible⟩
  · rw [hown]
    refine .inr ⟨failure, t, ?_, hkind, hnot⟩
    cases hkind <;> rfl

/-- What becomes of refusing a mount. -/
theorem ensureUnified_cases (mount : Path) (h : Host) :
    (ensureUnified mount).runOn h = (.ok (), h) ∨
    (∃ cause, (ensureUnified mount).runOn h = (.error (.unavailable cause), h)) ∧
      (¬ ∃ node, h.Has (mount.child ControlFile.controllers) node) ∨
    (∃ fault, (ensureUnified mount).runOn h = (.error (.os fault), h)) ∧
      h.Overlong (mount.child ControlFile.controllers) := by
  rw [ensureUnified]
  rcases Host.pathExists_cases (mount.child ControlFile.controllers) h with
    ⟨found, hlook⟩ | ⟨hlong, fault, hlook⟩
  · obtain ⟨-, hfound⟩ := Host.pathExists_eq_ok hlook
    rw [Action.runOn_bind_ok hlook]
    cases found with
    | true => exact .inl rfl
    | false => exact .inr (.inl ⟨⟨_, rfl⟩, fun hnode => absurd (hfound.2 hnode) (by simp)⟩)
  · exact .inr (.inr ⟨⟨fault, Action.runOn_bind_error hlook⟩, hlong⟩)

/-- **What becomes of looking for the subtree.** -/
theorem delegatedRoot_cases (settings : Settings) (h : Host) :
    (∃ t, (delegatedRoot settings).runOn h = (.ok (settings.rootOn h), t) ∧
      h.Legible (settings.groupListOn h)) ∨
    ((∃ cause t, (delegatedRoot settings).runOn h = (.error (.unavailable cause), t)) ∧
      ¬ settings.ReadyOn h) ∨
    (∃ failure t, (delegatedRoot settings).runOn h = (.error failure, t) ∧ failure.OfText ∧
      ¬ h.Legible (settings.groupListOn h)) ∨
    (∃ fault t, (delegatedRoot settings).runOn h = (.error (.os fault), t)) ∧
      (h.Overlong (settings.groupMount.child ControlFile.controllers) ∨
        h.Overlong (settings.rootOn h)) := by
  rw [delegatedRoot]
  rcases ensureUnified_cases settings.groupMount h with
    hunified | ⟨⟨cause, hunified⟩, hno⟩ | ⟨⟨fault, hunified⟩, hlong⟩
  · rw [Action.runOn_bind_ok hunified, Action.runOn_bind_ok (Action.runOn_get h)]
    dsimp only
    rw [show settings.delegatedRoot.getD (sessionRoot settings.groupMount
      ((none : Option Int).getD h.userId)) = settings.rootOn h from rfl]
    rcases Host.isDirectory_cases (settings.rootOn h) h with ⟨found, hlook⟩ | ⟨hlong, fault, hlook⟩
    · obtain ⟨-, hfound⟩ := Host.isDirectory_eq_ok hlook
      rw [Action.runOn_bind_ok hlook]
      cases found with
      | true =>
        rw [if_pos rfl]
        rcases reportOwnGroup_cases settings (settings.rootOn h) h with
          ⟨t, hreport, hlegible⟩ | ⟨failure, t, hreport, hkind, hnot⟩
        · exact .inl ⟨t, by rw [Action.runOn_bind_ok hreport, Action.runOn_pure], hlegible⟩
        · exact .inr (.inr (.inl ⟨failure, t, Action.runOn_bind_error hreport, hkind, hnot⟩))
      | false =>
        exact .inr (.inl ⟨⟨_, _, rfl⟩, fun hready => absurd (hfound.2 hready.root) (by simp)⟩)
    · exact .inr (.inr (.inr ⟨⟨fault, h, Action.runOn_bind_error hlook⟩, .inr hlong⟩))
  · exact .inr (.inl ⟨⟨cause, h, Action.runOn_bind_error hunified⟩, fun hready => hno hready.mount⟩)
  · exact .inr (.inr (.inr ⟨⟨fault, h, Action.runOn_bind_error hunified⟩, .inl hlong⟩))

/-! ## The directory of the groups -/

theorem isUnavailable_writeValue (hnull : p.hasNull = false) (value : String) :
    FailsAs Failure.IsUnavailable (writeValue p value) :=
  Action.isUnavailable_onFault (Host.failsByFault_writeText hnull value) _

/-- **Letting the children of a group have limits** fails in one way, unless the list of its
controllers is no text or too long to be looked for. -/
theorem enableMemory_failed {node : Path} (hnull : node.hasNull = false)
    (hrun : (enableMemory node).runOn h = (.error failure, t)) :
    failure.IsUnavailable ∨
    (failure.OfText ∧ ¬ h.Legible (node.child ControlFile.controllers)) ∨
    (∃ fault, failure = .os fault) ∧ h.Overlong (node.child ControlFile.controllers) := by
  have hwrite : FailsAs Failure.IsUnavailable
      (writeValue (node.child ControlFile.subtreeControl) "+memory") :=
    isUnavailable_writeValue
      (Path.hasNull_child_eq_false ControlFile.isFileName_subtreeControl (by decide) hnull) _
  rw [enableMemory] at hrun
  rcases Host.pathExists_cases (node.child ControlFile.controllers) h with
    ⟨found, hlook⟩ | ⟨hlong, fault, hlook⟩
  · rw [Action.runOn_bind_ok hlook] at hrun
    cases found with
    | false => exact .inl (hwrite _ _ _ hrun)
    | true =>
      rw [if_pos rfl] at hrun
      rcases readText_unavailable_cases (.unreadable (node.child ControlFile.controllers).text)
        (node.child ControlFile.controllers) h with ⟨text, u, hread, -⟩ | ⟨cause, u, hread, -⟩ |
        ⟨other, u, hread, hkind, hnot⟩
      · rw [Action.runOn_bind_ok hread] at hrun
        dsimp only at hrun
        split at hrun
        · cases hrun
          exact .inl ⟨_, rfl⟩
        · exact .inl (hwrite _ _ _ hrun)
      · rw [Action.runOn_bind_error hread] at hrun
        cases hrun
        exact .inl ⟨cause, rfl⟩
      · rw [Action.runOn_bind_error hread] at hrun
        cases hrun
        exact .inr (.inl ⟨hkind, hnot⟩)
  · rw [Action.runOn_bind_error hlook] at hrun
    cases hrun
    exact .inr (.inr ⟨⟨fault, rfl⟩, hlong⟩)

/-- Making a directory is refused in one way, unless its path is none. -/
theorem makeDirectory_failed (f : OsFault → Unavailable)
    (hrun : ((Host.makeDirectory p).onFault fun fault => throw (.unavailable (f fault))).runOn h =
      (.error failure, t)) :
    failure.IsUnavailable ∨ failure.OfText ∧ p.hasNull = true := by
  rcases Action.onFault_unavailable_cases hrun with htold | ⟨hfailed, hne⟩
  · exact .inl htold
  · cases hnull : p.hasNull with
    | true =>
      cases Host.ofFiles_makeDirectory p h failure t hfailed with
      | os fault => exact absurd rfl (hne fault)
      | nullCharacter => exact .inr ⟨.nullCharacter, rfl⟩
    | false =>
      have hfault : FailsByFault (Host.makeDirectory p) :=
        Host.failsAs_makeDirectory (fun fault => ⟨fault, rfl⟩) fun hp => by simp [hnull] at hp
      obtain ⟨fault, rfl⟩ := hfault h failure t hfailed
      exact absurd rfl (hne fault)

namespace Leaf

/-- Making the directory of our groups ready fails in one way, unless its list of controllers is no
text or too long to be looked for. -/
theorem parent_failed {parent : Path} (hwell : h.tree.WellFormed)
    (hrun : (do
      Action.onFault (Host.makeDirectory parent) fun fault =>
        throw (Failure.unavailable (.uncreatable parent.text fault))
      enableMemory parent
      return parent).runOn h = (.error failure, t)) :
    failure.IsUnavailable ∨
    (failure.OfText ∧ ¬ h.Decodable (parent.child ControlFile.controllers)) ∨
    (∃ fault, failure = .os fault) ∧ h.Overlong (parent.child ControlFile.controllers) := by
  rcases Action.runOn_bind_cases hrun with ⟨other, hmake, heq⟩ | ⟨_, u, hmake, hrest⟩
  · cases heq
    rcases makeDirectory_failed _ hmake with htold | ⟨hkind, hnull⟩
    · exact .inl htold
    · refine .inr (.inl ⟨hkind, fun hp => ?_⟩)
      rw [Path.hasNull_of_child ControlFile.isFileName_controllers hp.hasNull] at hnull
      cases hnull
  have hmade := Action.onFault_throw_eq_ok hmake
  obtain ⟨hdecodable, hoverlong⟩ := Host.child_of_makeDirectory hwell
    ControlFile.isFileName_controllers (by decide) hmade
  rcases Action.runOn_bind_cases hrest with ⟨other, henable, heq⟩ | ⟨_, v, -, hreturn⟩
  · cases heq
    rcases enableMemory_failed (Host.makeDirectory_eq_ok hmade).hasNull henable with
      htold | ⟨hkind, hnot⟩ | ⟨hfault, hlong⟩
    · exact .inl htold
    · exact .inr (.inl ⟨hkind, fun hp => hnot fun _ => hdecodable hp⟩)
    · exact .inr (.inr ⟨hfault, hoverlong hlong⟩)
  · cases hreturn

/-- **Until a leaf is made** there is no other failure than those that are foreseen. -/
theorem prepareParent_refused (hwell : h.tree.WellFormed)
    (hrun : (prepareParent settings).runOn h = (.error failure, t)) :
    settings.Refuses h failure := by
  rw [prepareParent] at hrun
  rcases delegatedRoot_cases settings h with ⟨u, hroot, -⟩ | ⟨⟨cause, u, hroot⟩, -⟩ |
    ⟨other, u, hroot, hkind, hnot⟩ | ⟨⟨fault, u, hroot⟩, hlong⟩
  · have hsame :=
      Host.sameGround_of_keeps (fun _ hP => keeps_delegatedRoot hP.unobserving _ _) hroot
    rw [Action.runOn_bind_ok hroot] at hrun
    rcases parent_failed (hsame.tree ▸ hwell) hrun with
      ⟨cause, rfl⟩ | ⟨hkind, hnot⟩ | ⟨⟨fault, rfl⟩, hlong⟩
    · exact .unavailable cause
    · refine .garbled hkind (p := settings.controllersOn h) (by simp [Settings.readOn]) ?_
      exact mt (Host.decodable_congr hsame.tree.symm hsame.directory_eq).2 hnot
    · refine .overlong fault (p := settings.controllersOn h) (by simp [Settings.soughtOn]) ?_
      exact (Host.overlong_congr hsame.tree.symm hsame.directory_eq).1 hlong
  · rw [Action.runOn_bind_error hroot] at hrun
    cases hrun
    exact .unavailable cause
  · rw [Action.runOn_bind_error hroot] at hrun
    cases hrun
    exact .garbled hkind (by simp [Settings.readOn]) fun hp => hnot fun _ => hp
  · rw [Action.runOn_bind_error hroot] at hrun
    cases hrun
    rcases hlong with hmount | hroot
    · exact .overlong fault (by simp [Settings.soughtOn]) hmount
    · exact .overlong fault (by simp [Settings.soughtOn]) hroot

/-- The path of a directory of our groups that was made ready is a path. -/
theorem hasNull_of_prepareParent {parent : Path}
    (hrun : (prepareParent settings).runOn h = (.ok parent, t)) : parent.hasNull = false := by
  rw [prepareParent] at hrun
  obtain ⟨root, u, -, hrest⟩ := Action.runOn_bind_eq_ok.1 hrun
  obtain ⟨_, v, hmake, hmore⟩ := Action.runOn_bind_eq_ok.1 hrest
  obtain ⟨_, w, -, hreturn⟩ := Action.runOn_bind_eq_ok.1 hmore
  cases hreturn
  exact (Host.makeDirectory_eq_ok (Action.onFault_throw_eq_ok hmake)).hasNull

/-! ## The limits of a leaf -/

variable {leaf : Leaf} {s : Host × Leaf}

/-- A value that is written and read back is refused in one way, if what is there is a text. -/
theorem writeThenCheck_failed {value : String} (hp : h.Decodable p)
    (hrun : (writeThenCheck p value).runOn h = (.error failure, t)) : failure.IsUnavailable := by
  rw [writeThenCheck] at hrun
  rcases Action.runOn_bind_cases hrun with ⟨other, hwrite, heq⟩ | ⟨_, u, hwrite, hcheck⟩
  · cases heq
    exact isUnavailable_writeValue hp.hasNull value h failure t hwrite
  · have hwritten : u.Decodable p := hp.of_writeText (Action.onFault_throw_eq_ok hwrite)
    rcases readText_unavailable_cases (.unreadableBack p.text) p u with
      ⟨text, v, hread, -⟩ | ⟨cause, v, hread, -⟩ | ⟨other, v, hread, -, hnot⟩
    · rw [Action.runOn_bind_ok hread] at hcheck
      dsimp only at hcheck
      split at hcheck
      · cases hcheck
        exact ⟨_, rfl⟩
      · cases hcheck
    · rw [Action.runOn_bind_error hread] at hcheck
      cases hcheck
      exact ⟨cause, rfl⟩
    · exact absurd (fun _ => hwritten) hnot

/-- Writing an integer to a leaf is refused in one way, if the integer has a numeral and what is in
the file is a text. -/
theorem writeNumber_failed {name : String} {value : ℤ} {check : Bool}
    (hvalue : Text.digitCount value.natAbs ≤ maxNumeralDigits) (hfile : h.Decodable (leaf.path.child name))
    (hrun : (writeNumber name value check).runOn (h, leaf) = (.error failure, s)) :
    failure.IsUnavailable := by
  rw [writeNumber, Action.runOn_bind_ok (runOn_self h leaf)] at hrun
  split at hrun
  · cases hrun
    exact ⟨_, rfl⟩
  rw [writeInteger, if_neg (not_lt.2 hvalue)] at hrun
  dsimp only at hrun
  rw [writeText, Action.runOn_bind_ok (runOn_self h leaf)] at hrun
  split at hrun
  · cases hrun
    exact ⟨_, rfl⟩
  obtain ⟨t, leaf'⟩ := s
  obtain ⟨hwrite, -⟩ := onHost_eq_iff.1 hrun
  split at hwrite
  · exact writeThenCheck_failed hfile hwrite
  · exact isUnavailable_writeValue hfile.hasNull _ h failure t hwrite

/-- Writing to a leaf leaves the leaf as it is. -/
theorem leaf_of_writeNumber {name : String} {value : ℤ} {check : Bool} {outcome : Except Failure Unit}
    (hrun : (writeNumber name value check).runOn (h, leaf) = (outcome, s)) : s.2 = leaf := by
  have hkeeps : Keeps (Held (fun _ => True) leaf) (writeNumber name value check) := by
    apply keeps_writeNumber
    · exact Host.Grounded.unobserving fun _ _ _ _ => trivial
    · exact fun _ _ _ _ _ => trivial
  exact (hkeeps.after hrun ⟨trivial, rfl⟩).2

/-- Writing the limits of a leaf is refused in one way, if there is nothing in the leaf. -/
theorem writeLimits_failed {limit : ℕ} (hlimit : Text.digitCount limit ≤ maxNumeralDigits)
    (hnull : leaf.path.hasNull = false)
    (hempty : ∀ name, IsFileName name →
      h.tree.get? ((leaf.path.child name).placeFrom h.directory) = none)
    (hrun : (do
      writeNumber ControlFile.memoryMax limit
      writeNumber ControlFile.swapMax 0 true).runOn (h, leaf) = (.error failure, s)) :
    failure.IsUnavailable ∧ s.2 = leaf := by
  rcases Action.runOn_bind_cases hrun with ⟨_, hmax, heq⟩ | ⟨_, ⟨u, leaf'⟩, hmax, hswap⟩
  · cases heq
    refine ⟨writeNumber_failed ?_ (Host.decodable_of_get?_eq_none ?_ ?_) hmax,
      leaf_of_writeNumber hmax⟩
    · rwa [Int.natAbs_natCast]
    · exact Path.hasNull_child_eq_false ControlFile.isFileName_memoryMax (by decide) hnull
    · exact hempty _ ControlFile.isFileName_memoryMax
  · obtain rfl : leaf' = leaf := leaf_of_writeNumber hmax
    refine ⟨writeNumber_failed (by decide) (Host.decodable_of_get?_eq_none ?_ ?_) hswap,
      leaf_of_writeNumber hswap⟩
    · exact Path.hasNull_child_eq_false ControlFile.isFileName_swapMax (by decide) hnull
    · -- the file for the swap space is another one, so there is still nothing in its place
      have hgrown := grows_writeNumber ControlFile.isFileName_memoryMax hmax
      rw [hgrown.directory_eq, hgrown.tree.same, hempty _ ControlFile.isFileName_swapMax]
      rw [Path.placeFrom_child ControlFile.isFileName_memoryMax,
        Path.placeFrom_child ControlFile.isFileName_swapMax]
      exact concat_ne_concat (by decide)

/-- **A leaf whose limits are refused** is removed, and the refusal is told in one way. -/
theorem setLimits_failed {limit : ℕ} (hlimit : Text.digitCount limit ≤ maxNumeralDigits)
    (halive : leaf.destroyed = false) (hnull : leaf.path.hasNull = false)
    (hempty : ∀ name, IsFileName name →
      h.tree.get? ((leaf.path.child name).placeFrom h.directory) = none)
    (hrun : (setLimits limit).runOn (h, leaf) = (.error failure, s)) : failure.IsUnavailable := by
  rw [setLimits, Action.runOn_tryCatch] at hrun
  split at hrun
  · cases hrun
  · rename_i other r hwritten
    obtain ⟨v, leaf'⟩ := r
    obtain ⟨htold, rfl⟩ := writeLimits_failed hlimit hnull hempty hwritten
    -- the removal is no failure, so the refusal is passed on
    obtain ⟨w, removal, hdestroy, -⟩ := runOn_destroy_removal halive hnull v
    rw [Action.runOn_bind_ok hdestroy] at hrun
    cases hrun
    exact htold

/-! ## Leaves that are not made -/

/-- A limit in bytes is a number of bytes. -/
theorem check_bytes (n : ℕ) : (Limit.bytes n).check = .ok n := by
  rw [Limit.check, if_pos (Int.natCast_nonneg n), Int.toNat_natCast]

/-- A leaf is refused for reasons that are foreseen. -/
theorem refuses_of_create {n : ℕ} (hwell : h.tree.WellFormed)
    (hn : Text.digitCount n ≤ maxNumeralDigits)
    (hrun : (create settings (.bytes n)).runOn h = (.error failure, t)) :
    settings.Refuses h failure := by
  rw [create, check_bytes, Action.runOn_bind_ok (Action.runOn_liftM _ h)] at hrun
  rcases Action.runOn_bind_cases hrun with ⟨other, hprepare, heq⟩ | ⟨parent, u, hprepare, hmakes⟩
  · cases heq
    exact prepareParent_refused hwell hprepare
  have hnull := hasNull_of_prepareParent hprepare
  have huwell : u.tree.WellFormed := (prepareParent_grows hprepare).tree.wellFormed hwell
  have hfreshNull : ∀ count, (Host.freshPath parent settings.groupDirectory count).hasNull = false := by
    intro count
    refine Host.hasNull_freshPath hnull ?_ count
    rw [parentOn_of_prepareParent hprepare] at hnull
    exact Path.null_not_mem_of_child hnull
  rcases Action.runOn_bind_cases hmakes with ⟨other, hmake, heq⟩ | ⟨path, v, hmake, hlimits⟩
  · cases heq
    have hfault : FailsByFault (Host.makeFreshDirectory parent settings.groupDirectory) :=
      Host.failsAs_makeFreshDirectory (fun fault => ⟨fault, rfl⟩) fun count hp => by
        simp [hfreshNull count] at hp
    obtain ⟨cause, rfl⟩ := Action.isUnavailable_onFault hfault _ u failure t hmake
    exact .unavailable cause
  rcases Host.makeFreshDirectory_cases (Action.onFault_throw_eq_ok hmake) with
    ⟨_, hfail, -⟩ | ⟨count, hpath, hfresh⟩
  · cases hfail
  cases hpath
  rw [Action.runOn_bind, Action.runOn_withSecond] at hlimits
  cases hset : (setLimits n).runOn (v, ⟨Host.freshPath parent settings.groupDirectory count, n, false⟩)
    with
  | mk ended s =>
    rw [hset] at hlimits
    cases ended with
    | ok _ => cases hlimits
    | error other =>
      cases hlimits
      obtain ⟨cause, rfl⟩ := setLimits_failed hn rfl (hfreshNull count)
        (fun name hname => hfresh.get?_child huwell hname) hset
      exact .unavailable cause

end Leaf

/-! ## Files that are no text -/

/-- Where the list of controllers is no text, the children of a group cannot be let have limits. -/
theorem enableMemory_garbled {node : Path} {bytes : ByteArray}
    (hhas : h.Has (node.child ControlFile.controllers) (.file bytes))
    (hnot : ¬ h.Legible (node.child ControlFile.controllers)) :
    ∃ failure t, (enableMemory node).runOn h = (.error failure, t) ∧ failure.OfText := by
  rw [enableMemory, Action.runOn_bind_ok (Host.runOn_pathExists_of_has hhas), if_pos rfl]
  rcases readText_unavailable_cases (.unreadable (node.child ControlFile.controllers).text)
    (node.child ControlFile.controllers) h with ⟨text, u, -, hlegible⟩ | ⟨cause, u, -, hlegible⟩ |
    ⟨failure, u, hread, hkind, -⟩
  · exact absurd hlegible hnot
  · exact absurd hlegible hnot
  · exact ⟨failure, u, Action.runOn_bind_error hread, hkind⟩

namespace Leaf

/-- Where the list of controllers is no text, the directory of our groups is not made ready. -/
theorem parent_garbled {parent : Path} (hquiet : h.disturbances = [])
    (hnot : ¬ h.Decodable (parent.child ControlFile.controllers)) :
    ∃ failure t, (do
      Action.onFault (Host.makeDirectory parent) fun fault =>
        throw (Failure.unavailable (.uncreatable parent.text fault))
      enableMemory parent
      return parent).runOn h = (.error failure, t) ∧ failure.OfText := by
  cases hnull : parent.hasNull with
  | true =>
    obtain ⟨t, hmake⟩ := Host.runOn_makeDirectory_of_null hquiet hnull
    refine ⟨.invalid .nullCharacter, t, Action.runOn_bind_error ?_, .nullCharacter⟩
    rw [Action.runOn_onFault, hmake]
  | false =>
    have hfileNull : (parent.child ControlFile.controllers).hasNull = false :=
      Path.hasNull_child_eq_false ControlFile.isFileName_controllers (by decide) hnull
    -- the file is there, so its directory is
    obtain ⟨bytes, hfile⟩ := Host.exists_has_of_not_decodable hfileNull hnot
    obtain ⟨t, hmake, hsame⟩ := Host.runOn_makeDirectory_of_has hquiet
      (hfile.directory_of_child ControlFile.isFileName_controllers)
    obtain ⟨failure, u, henable, hkind⟩ := enableMemory_garbled (hfile.of_sameGround hsame)
      (Host.not_legible_of_quiet (hsame.quiet hquiet)
        (mt (Host.decodable_congr hsame.tree.symm hsame.directory_eq).1 hnot))
    refine ⟨failure, u, ?_, hkind⟩
    rw [Action.runOn_bind_ok (a := ()) (t := t) (by rw [Action.runOn_onFault, hmake]),
      Action.runOn_bind_error henable]

/-- **Files that are no text** keep the directory of our groups from being made ready. -/
theorem prepareParent_garbled (hquiet : h.disturbances = []) (hready : settings.ReadyOn h)
    (hp : p ∈ settings.readOn h) (hnot : ¬ h.Decodable p) :
    ∃ failure t, (prepareParent settings).runOn h = (.error failure, t) ∧ failure.OfText := by
  rw [prepareParent]
  rcases delegatedRoot_cases settings h with ⟨u, hroot, hlegible⟩ | ⟨-, hnever⟩ |
    ⟨failure, u, hroot, hkind, -⟩ | ⟨-, hlong | hlong⟩
  · -- the list of the groups was read, so it is the list of controllers that is no text
    have hcontrollers : p = settings.controllersOn h := by
      rcases List.mem_cons.1 hp with rfl | hp
      · exact absurd hlegible (Host.not_legible_of_quiet hquiet hnot)
      · exact List.mem_singleton.1 hp
    subst hcontrollers
    have hsame :=
      Host.sameGround_of_keeps (fun _ hP => keeps_delegatedRoot hP.unobserving _ _) hroot
    rw [Action.runOn_bind_ok hroot]
    exact parent_garbled (hsame.quiet hquiet)
      (mt (Host.decodable_congr hsame.tree.symm hsame.directory_eq).1 hnot)
  · exact absurd hready hnever
  · exact ⟨failure, u, Action.runOn_bind_error hroot, hkind⟩
  · obtain ⟨node, hnode⟩ := hready.mount
    exact absurd hlong hnode.not_overlong
  · exact absurd hlong hready.root.not_overlong

/-- **A leaf that is not made is refused in one way**: groups are unavailable. Only a file that is read
before, and is no text, and a path that is too long to be looked for are told otherwise; and where there
is a subtree, and nothing is disturbed, each such file is. -/
theorem create_refused (settings : Settings) (n : ℕ) (h : Host) (hwell : h.tree.WellFormed)
    (hn : Text.digitCount n ≤ maxNumeralDigits) :
    (∀ failure t, (create settings (.bytes n)).runOn h = (.error failure, t) →
      settings.Refuses h failure) ∧
    (h.disturbances = [] → settings.ReadyOn h →
      ((∃ failure t, (create settings (.bytes n)).runOn h = (.error failure, t) ∧ failure.OfText) ↔
        ∃ p ∈ settings.readOn h, ¬ h.Decodable p)) := by
  have hrefused : ∀ failure t, (create settings (.bytes n)).runOn h = (.error failure, t) →
      settings.Refuses h failure := fun failure t hrun => refuses_of_create hwell hn hrun
  refine ⟨hrefused, fun hquiet hready => ⟨?_, ?_⟩⟩
  · intro hfailed
    obtain ⟨failure, t, hrun, hkind⟩ := hfailed
    cases hrefused failure t hrun with
    | unavailable cause => cases hkind
    | garbled _ hmem hnot => exact ⟨_, hmem, hnot⟩
    | overlong fault => cases hkind
  · intro hgarbled
    obtain ⟨p, hmem, hnot⟩ := hgarbled
    obtain ⟨failure, t, hprepare, hkind⟩ := prepareParent_garbled hquiet hready hmem hnot
    refine ⟨failure, t, ?_, hkind⟩
    rw [create, check_bytes, Action.runOn_bind_ok (Action.runOn_liftM _ h),
      Action.runOn_bind_error hprepare]

end Leaf

/-- A host with a delegated subtree, where the list of controllers has a byte that is no text. -/
def Host.illegible : Host where
  tree := ⟨[(["m"], .directory), (["m", "cgroup.controllers"], .file .empty),
    (["m", "r"], .directory), (["m", "r", "g"], .directory),
    (["m", "r", "g", "cgroup.controllers"], .file ⟨#[0xff]⟩)]⟩

theorem Settings.readyOn_illegible : Settings.delegated.ReadyOn Host.illegible :=
  ⟨⟨_, by decide, rfl⟩, by decide, rfl⟩

/-- There such bytes keep a leaf from being made. Where a limit is refused, that is foreseen. -/
theorem Leaf.create_refused_illegible :
    Host.illegible.tree.WellFormed ∧ Host.delegated.tree.WellFormed ∧
    Text.digitCount 5 ≤ maxNumeralDigits ∧
    (∃ failure t, (create Settings.delegated (.bytes 5)).runOn Host.illegible = (.error failure, t) ∧
      failure.OfText) ∧
    ∀ failure t, (create Settings.delegated (.bytes 5)).runOn Host.refusing = (.error failure, t) →
      Settings.delegated.Refuses Host.refusing failure := by
  have hwell : Host.illegible.tree.WellFormed := ⟨by decide, by decide⟩
  have hn : Text.digitCount 5 ≤ maxNumeralDigits := by decide
  refine ⟨hwell, Host.wellFormed_delegated, hn, ?_, ?_⟩
  · obtain ⟨-, hgarbled⟩ := create_refused Settings.delegated 5 Host.illegible hwell hn
    refine (hgarbled rfl Settings.readyOn_illegible).2
      ⟨Settings.delegated.controllersOn Host.illegible, by simp [Settings.readOn], fun hp => ?_⟩
    have hsome := hp.isSome ⟨#[0xff]⟩ rfl
    revert hsome
    decide
  · exact (create_refused Settings.delegated 5 Host.refusing Host.wellFormed_delegated hn).1

/-- Such bytes are not told as an unavailable group. -/
theorem Leaf.create_illegible :
    ¬ ∀ failure t, (create Settings.delegated (.bytes 5)).runOn .illegible = (.error failure, t) →
      ∃ cause, failure = .unavailable cause := by
  have hrun : ((create Settings.delegated (.bytes 5)).runOn .illegible).1 = .error .undecodable := by
    decide +kernel
  intro htold
  obtain ⟨cause, hcause⟩ := htold .undecodable _ (Prod.ext hrun rfl)
  cases hcause

end MemoryLimit
