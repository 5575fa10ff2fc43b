import MemoryLimit.Proofs.Group.Steps

/-!
# The directory of the groups

Before a group is made, the subtree that we may write to is looked for, the directory of our groups
is made in it, and that directory is told to let its groups have memory limits. Until the subtree
was found nothing changes, and then nothing but that directory and one file in it.

## Main definitions

* `Settings.rootOn`, `Settings.parentOn` — the subtree, and the directory of our groups in it.
* `ListsMemory` — a list of controllers has the memory controller.

## Main statements

* `Leaf.prepareParent_not_ready` — without a subtree nothing is changed.
* `Leaf.prepareParent_grows` — what is changed.
* `Leaf.prepareParent_eq_ok` — what the directory of our groups has when it is ready.
-/
namespace MemoryLimit

open MemoryLimit.Action (Keeps)
open MemoryLimit.Host (Unobserving)

/-- The subtree that a host lets us write to. -/
def Settings.rootOn (settings : Settings) (h : Host) : Path :=
  settings.delegatedRoot.getD (sessionRoot settings.groupMount h.userId)

/-- The directory of our groups on a host. -/
def Settings.parentOn (settings : Settings) (h : Host) : Path :=
  (settings.rootOn h).child settings.groupDirectory

variable {P : Host → Prop} {h t : Host} {settings : Settings}

/-! ## Looking for the subtree -/

theorem ensureUnified_eq_ok {mount : Path} (hrun : (ensureUnified mount).runOn h = (.ok (), t)) :
    t = h ∧ ∃ node, h.Has (mount.child ControlFile.controllers) node := by
  rw [ensureUnified] at hrun
  obtain ⟨found, u, hexists, hend⟩ := Action.runOn_bind_eq_ok.1 hrun
  obtain ⟨rfl, hfound⟩ := Host.pathExists_eq_ok hexists
  split at hend
  · rename_i htrue
    cases hend
    exact ⟨rfl, hfound.1 htrue⟩
  · cases hend

theorem keeps_ownGroup (hP : Unobserving P) (processRoot mount : Path) :
    Keeps P (ownGroup processRoot mount) := by
  refine Keeps.get.bind fun h => ?_
  rw [groupOf]
  have hread := Host.keeps_readText hP
    ((processRoot.child (toString h.processId)).child "cgroup")
  refine (hread.onFault fun _ => .throw _).bind fun text => ?_
  split
  · exact .pure _
  · exact .throw _

/-- Where this process lives is only reported. -/
theorem keeps_reportOwnGroup (hP : Unobserving P) (settings : Settings) (root : Path) :
    Keeps P (reportOwnGroup settings root) := by
  have hreport := Host.keeps_report hP
  have hown : Keeps P (some <$> ownGroup settings.processRoot settings.groupMount) := by
    rw [← bind_pure_comp]
    exact (keeps_ownGroup hP _ _).bind fun _ => .pure _
  refine Keeps.bind (hown.tryCatch fun failure => ?_) fun own => ?_
  · split
    · exact (hreport _).bind fun _ => .pure _
    · exact .throw _
  · split
    · split
      · exact .pure _
      · exact hreport _
    · exact .pure _

theorem keeps_delegatedRoot (hP : Unobserving P) (settings : Settings) (userId : Option Int) :
    Keeps P (delegatedRoot settings userId) := by
  have hunified : Keeps P (ensureUnified settings.groupMount) := by
    refine (Host.keeps_pathExists _).bind fun found => ?_
    split
    · exact .pure _
    · exact .throw _
  refine hunified.bind fun _ => Keeps.get.bind fun h => ?_
  refine (Host.keeps_isDirectory _).bind fun found => ?_
  split
  · exact (keeps_reportOwnGroup hP _ _).bind fun _ => .pure _
  · exact .throw _

/-- The subtree that is found exists, on a mount of the unified hierarchy. -/
theorem delegatedRoot_eq_ok {root : Path}
    (hrun : (delegatedRoot settings).runOn h = (.ok root, t)) :
    root = settings.rootOn h ∧ h.Has root .directory ∧
      ∃ node, h.Has (settings.groupMount.child ControlFile.controllers) node := by
  rw [delegatedRoot] at hrun
  obtain ⟨_, u, hunified, hlook⟩ := Action.runOn_bind_eq_ok.1 hrun
  obtain ⟨rfl, hmount⟩ := ensureUnified_eq_ok hunified
  rw [Action.runOn_bind_ok (Action.runOn_get _)] at hlook
  obtain ⟨found, v, hfound, hend⟩ := Action.runOn_bind_eq_ok.1 hlook
  obtain ⟨rfl, hroot⟩ := Host.isDirectory_eq_ok hfound
  split at hend
  · rename_i htrue
    obtain ⟨_, w, -, hreturn⟩ := Action.runOn_bind_eq_ok.1 hend
    cases hreturn
    exact ⟨rfl, hroot.1 htrue, hmount⟩
  · cases hend

/-! ## Letting groups have limits -/

/-- A list of controllers, as it is read, has the memory controller. -/
def ListsMemory (bytes : ByteArray) : Prop :=
  ∃ content, Host.decode bytes = .ok content ∧
    "memory" ∈ (Text.words (Text.foldReturns content.toList)).map String.ofList

/-- A failure that is answered by another failure is no success. -/
theorem Action.onFault_throw_eq_ok {σ α : Type} {x : Action σ α} {f : OsFault → Failure} {s s' : σ}
    {a : α} (hrun : (x.onFault fun fault => throw (f fault)).runOn s = (.ok a, s')) :
    x.runOn s = (.ok a, s') := by
  rw [runOn_onFault] at hrun
  split at hrun
  · cases hrun
  · exact hrun

theorem Action.onFault_throw_eq_error {σ α : Type} {x : Action σ α} {f : OsFault → Failure}
    {s s' : σ} {failure : Failure}
    (hrun : (x.onFault fun fault => throw (f fault)).runOn s = (.error failure, s')) :
    ∃ cause, x.runOn s = (.error cause, s') := by
  rw [runOn_onFault] at hrun
  split at hrun
  · rename_i fault u hx
    cases hrun
    exact ⟨.os fault, hx⟩
  · exact ⟨failure, hrun⟩

theorem writeValue_eq_ok {p : Path} {value : String} (hfaults : h.FaultsOnly)
    (hrun : (writeValue p value).runOn h = (.ok (), t)) : t.Has p (.file value.toUTF8) :=
  Host.writeText_eq_ok hfaults (Action.onFault_throw_eq_ok hrun)

theorem keeps_enableMemory {node : Path} (hP : Unobserving P)
    (hwrite : Host.AllowsWriting P (node.child ControlFile.subtreeControl)) :
    Keeps P (enableMemory node) := by
  have hread := Host.keeps_readText hP (node.child ControlFile.controllers)
  have hvalue := keeps_writeValue hP hwrite "+memory"
  refine (Host.keeps_pathExists _).bind fun found => ?_
  split
  · refine (hread.onFault fun _ => .throw _).bind fun text => ?_
    dsimp only
    split
    · exact Keeps.bind (.throw _) fun _ => hvalue
    · exact hvalue
  · exact hvalue

theorem grows_enableMemory {node : Path} {outcome : Except Failure Unit}
    (hrun : (enableMemory node).runOn h = (outcome, t)) :
    h.Grows (fun _ => False)
      (fun q => q = (node.child ControlFile.subtreeControl).placeFrom h.directory) t := by
  refine Host.grows_of_keeps ?_ hrun
  apply keeps_enableMemory (Host.unobserving_evolves _ h)
  exact Host.allowsWriting
    (Path.leads_child_of_isFileName ControlFile.isFileName_subtreeControl) rfl

/-- A group that lets its children have memory limits has been told so, and its list of
controllers, if there is one, has the memory controller. -/
theorem enableMemory_eq_ok {node : Path} (hfaults : h.FaultsOnly)
    (hrun : (enableMemory node).runOn h = (.ok (), t)) :
    t.Has (node.child ControlFile.subtreeControl) (.file "+memory".toUTF8) ∧
      ∀ bytes, h.Has (node.child ControlFile.controllers) (.file bytes) → ListsMemory bytes := by
  rw [enableMemory] at hrun
  obtain ⟨found, u, hexists, hcheck⟩ := Action.runOn_bind_eq_ok.1 hrun
  obtain ⟨rfl, hfound⟩ := Host.pathExists_eq_ok hexists
  split at hcheck
  · obtain ⟨text, v, hread, hlist⟩ := Action.runOn_bind_eq_ok.1 hcheck
    have hreading := Action.onFault_throw_eq_ok hread
    have hsame := Host.sameGround_of_keeps (fun _ hP => Host.keeps_readText hP.unobserving _) hreading
    obtain ⟨bytes, content, hbytes, hcontent, rfl⟩ := Host.readText_eq_ok hfaults hreading
    dsimp only at hlist
    split at hlist
    · obtain ⟨_, w, hthrow, -⟩ := Action.runOn_bind_eq_ok.1 hlist
      cases hthrow
    · rename_i hmemory
      refine ⟨writeValue_eq_ok (hfaults.of_evolves hsame) hlist, fun other hother => ?_⟩
      have heq := hother.unique hbytes
      injection heq with heq
      subst heq
      refine ⟨content, hcontent, ?_⟩
      simpa using hmemory
  · rename_i hno
    refine ⟨writeValue_eq_ok hfaults hcheck, fun bytes hbytes => ?_⟩
    exact absurd (hfound.2 ⟨_, hbytes⟩) hno

/-! ## The directory of our groups -/

namespace Leaf

/-- The places that are changed until a group is made. -/
def Prepares (settings : Settings) (h : Host) (place : Place) : Prop :=
  place = (settings.parentOn h).placeFrom h.directory ∨
    place = ((settings.parentOn h).child ControlFile.subtreeControl).placeFrom h.directory

/-- **Until a group is made** nothing is changed but that the directory of our groups is made and
told to let its groups have limits. -/
theorem prepareParent_grows {outcome : Except Failure Path}
    (hrun : (prepareParent settings).runOn h = (outcome, t)) :
    h.Grows (fun q => q = (settings.parentOn h).placeFrom h.directory) (Prepares settings h) t := by
  rw [prepareParent] at hrun
  rcases Action.runOn_bind_cases hrun with ⟨failure, hroot, rfl⟩ | ⟨root, u, hroot, hmake⟩
  · exact .of_eq (Host.sameGround_of_keeps (fun _ hP => keeps_delegatedRoot hP.unobserving _ _) hroot)
  have hsame := Host.sameGround_of_keeps (fun _ hP => keeps_delegatedRoot hP.unobserving _ _) hroot
  obtain ⟨rfl, -, -⟩ := delegatedRoot_eq_ok hroot
  let P := h.Grows (fun q => q = (settings.parentOn h).placeFrom h.directory) (Prepares settings h)
  have hP : Unobserving P := Host.unobserving_evolves _ h
  have hparent : Keeps P (Host.makeDirectory (settings.parentOn h)) :=
    Host.keeps_makeDirectory hP (Host.allows_makeDirectory (fun _ => rfl) (.inl rfl))
  have hmemory : Keeps P (enableMemory (settings.parentOn h)) := by
    apply keeps_enableMemory hP
    apply Host.allowsWriting
    · exact Path.leads_child_of_isFileName ControlFile.isFileName_subtreeControl
    · exact .inr rfl
  refine Keeps.after (P := P) ?_ hmake (.of_eq hsame)
  exact (hparent.onFault fun _ => .throw _).bind fun _ => hmemory.bind fun _ => .pure _

/-- **Without a subtree nothing is changed.** -/
theorem prepareParent_not_ready {outcome : Except Failure Path}
    (hready : (¬ ∃ node, h.Has (settings.groupMount.child ControlFile.controllers) node) ∨
      ¬ h.Has (settings.rootOn h) .directory)
    (hrun : (prepareParent settings).runOn h = (outcome, t)) :
    (∃ failure, outcome = .error failure) ∧ h.SameGround t := by
  rw [prepareParent] at hrun
  rcases Action.runOn_bind_cases hrun with ⟨failure, hroot, rfl⟩ | ⟨root, u, hroot, -⟩
  · exact ⟨⟨failure, rfl⟩,
      Host.sameGround_of_keeps (fun _ hP => keeps_delegatedRoot hP.unobserving _ _) hroot⟩
  · obtain ⟨rfl, hdirectory, hmount⟩ := delegatedRoot_eq_ok hroot
    rcases hready with hno | hno
    · exact absurd hmount hno
    · exact absurd hdirectory hno

/-- **The directory of our groups, when it is ready**, has been told to let its groups have limits,
and has the memory controller if it lists its controllers. -/
theorem prepareParent_eq_ok {parent : Path} (hfaults : h.FaultsOnly)
    (hrun : (prepareParent settings).runOn h = (.ok parent, t)) :
    parent = settings.parentOn h ∧ t.Has parent .directory ∧
      t.Has (parent.child ControlFile.subtreeControl) (.file "+memory".toUTF8) ∧
      ∀ bytes, t.Has (parent.child ControlFile.controllers) (.file bytes) → ListsMemory bytes := by
  rw [prepareParent] at hrun
  obtain ⟨root, u, hroot, hmake⟩ := Action.runOn_bind_eq_ok.1 hrun
  obtain ⟨rfl, -, -⟩ := delegatedRoot_eq_ok hroot
  have hsame := Host.sameGround_of_keeps (fun _ hP => keeps_delegatedRoot hP.unobserving _ _) hroot
  obtain ⟨_, v, hdirectory, hmemory⟩ := Action.runOn_bind_eq_ok.1 hmake
  obtain ⟨_, w, henable, hreturn⟩ := Action.runOn_bind_eq_ok.1 hmemory
  cases hreturn
  rw [← Settings.parentOn] at hdirectory henable ⊢
  have hmaking := Action.onFault_throw_eq_ok hdirectory
  have hmade := Host.makeDirectory_eq_ok hmaking
  have hgrown : u.Grows (fun q => q = (settings.parentOn h).placeFrom u.directory)
      (fun q => q = (settings.parentOn h).placeFrom u.directory) v := by
    refine Host.grows_of_keeps ?_ hmaking
    exact Host.keeps_makeDirectory (Host.unobserving_evolves _ u) (Host.allows_makeDirectory (fun _ => rfl) rfl)
  have htold := grows_enableMemory henable
  obtain ⟨hcontrol, hlist⟩ :=
    enableMemory_eq_ok ((hfaults.of_evolves hsame).of_evolves hgrown) henable
  refine ⟨rfl, hmade.directory_of_grows htold, hcontrol, fun bytes hbytes => hlist bytes ?_⟩
  apply hbytes.of_grows_child ControlFile.isFileName_controllers hmade htold
  rw [Path.placeFrom_child ControlFile.isFileName_controllers,
    Path.placeFrom_child ControlFile.isFileName_subtreeControl]
  simp [ControlFile.controllers, ControlFile.subtreeControl]

end Leaf

end MemoryLimit
