import MemoryLimit.Proofs.Trial.Child

/-!
# What is read and removed after a command

After a command the processor time of its group is read, which is one call, and the group is removed,
which takes attempts with pauses between them. Nothing else is done outside.

## Main definitions

* `Host.CalledOnly` — nothing was done but calls.
* `readDeeds`, `IsRemoval` — what is done to make the record, and to remove the leaf.
* `saysGone` — what an attempt to remove a directory says about it.

## Main statements

* `leads_collect` — the record of a run takes one reading of its group.
* `runOn_destroy_removal` — removing a leaf that is alive is a removal, and nothing else.
-/
namespace MemoryLimit

open MemoryLimit.Action (Keeps Leads FailsByFault)
open MemoryLimit.Host (Did)

variable {h t u : Host} {leaf : Leaf} {start : Binary64}

/-! ## Calls -/

/-- Nothing was done between two hosts but calls, and the next child process is the same. -/
structure Host.CalledOnly (h t : Host) : Prop where
  deeds : ∃ calls : List (Call × Path), t.deeds = h.deeds ++ calls.map fun c => .called c.1 c.2
  child_eq : t.child = h.child

theorem Host.CalledOnly.refl (h : Host) : h.CalledOnly h :=
  ⟨⟨[], by simp⟩, rfl⟩

theorem Host.CalledOnly.trans (h₁ : h.CalledOnly t) (h₂ : t.CalledOnly u) : h.CalledOnly u := by
  obtain ⟨first, hfirst⟩ := h₁.deeds
  obtain ⟨second, hsecond⟩ := h₂.deeds
  refine ⟨⟨first ++ second, ?_⟩, h₂.child_eq.trans h₁.child_eq⟩
  rw [hsecond, hfirst, List.map_append, List.append_assoc]

theorem Host.treeless_calledOnly (h : Host) : Treeless h.CalledOnly where
  called := by
    intro t call p ht
    exact ht.trans ⟨⟨[(call, p)], rfl⟩, rfl⟩
  disturbed := fun _ _ _ ht => ⟨ht.deeds, ht.child_eq⟩
  reported := fun _ _ ht => ⟨ht.deeds, ht.child_eq⟩
  paused := fun _ _ ht => ⟨ht.deeds, ht.child_eq⟩
  ticked := fun _ ht => ⟨ht.deeds, ht.child_eq⟩
  drawn := fun _ _ ht => ⟨ht.deeds, ht.child_eq⟩
  planted := fun _ _ ht => ⟨ht.deeds, ht.child_eq⟩

/-! ## Reading and removing -/

/-- What is read of a group after its command is gone: its processor time, if the wait was not
interrupted. -/
def readDeeds (leaf : Leaf) : Except Failure WaitOutcome → List Deed
  | .ok _ => [.called .read (leaf.path.child ControlFile.cpuStat)]
  | .error _ => []

/-- The record of a run takes one reading of its group. -/
theorem leads_collect (deeds : List Deed) (leaf : Leaf) (start : Binary64) (code : Int) :
    Leads (Did deeds) (Did (deeds ++ [.called .read (leaf.path.child ControlFile.cpuStat)]))
      (collect leaf start code) := by
  generalize hfile : leaf.path.child ControlFile.cpuStat = file
  have hreadKeyed : Leads (Did deeds) (Did (deeds ++ [.called .read file])) (readKeyed file) :=
    (Host.leads_readText deeds file).bind fun _ => .pure _
  have hcpu : Leads (Did deeds) (Did (deeds ++ [.called .read file])) (readCpu leaf.path) := by
    rw [readCpu, hfile]
    refine (hreadKeyed.onFault fun _ => .throw _).bind fun stat => ?_
    split
    · exact .throw _
    · split
      · exact .throw _
      · exact .liftM _
  refine (hcpu.tryCatch fun failure => ?_).bind fun cpu => ?_
  · split
    · exact (Host.keeps_did_report _ _).bind fun _ => .pure _
    · exact .throw _
  · exact (Host.keeps_did_tick _).bind fun _ => (Keeps.liftM _).bind fun _ =>
      (Keeps.liftM _).bind fun _ => (Host.keeps_did_report _ _).bind fun _ => .pure _

/-- The record of a run has its exit code and the limit of its leaf. -/
theorem eq_of_collect {code : Int} {usage : Usage}
    (hrun : (collect leaf start code).runOn h = (.ok usage, t)) :
    usage.exitCode = code ∧ usage.limit = leaf.limit := by
  obtain ⟨cpu, h₁, -, hrun⟩ := Action.runOn_bind_eq_ok.1 hrun
  obtain ⟨now, h₂, -, hrun⟩ := Action.runOn_bind_eq_ok.1 hrun
  obtain ⟨wall, h₃, -, hrun⟩ := Action.runOn_bind_eq_ok.1 hrun
  obtain ⟨load, h₄, -, hrun⟩ := Action.runOn_bind_eq_ok.1 hrun
  obtain ⟨_, h₅, -, hrun⟩ := Action.runOn_bind_eq_ok.1 hrun
  cases hrun
  exact ⟨rfl, rfl⟩

/-- What is done to remove a leaf: it is tried to remove its directory, perhaps several times with
pauses between. -/
def IsRemoval (leaf : Leaf) (deeds : List Deed) : Prop :=
  deeds.head? = some (.called .rmdir leaf.path) ∧
    ∀ deed ∈ deeds, deed = .called .rmdir leaf.path ∨ deed = .called .sleep .empty

/-- An attempt to remove a directory is one call, which leaves alone everything but the tree. -/
theorem Host.exists_tree_of_removeDirectory (p : Path) (h : Host) :
    ∃ tree, ((Host.removeDirectory p).runOn h).2 =
      { h with
        tree := tree
        deeds := h.deeds ++ [.called .rmdir p]
        disturbances := (Disturbance.strike .rmdir p.name h.disturbances).2 } := by
  rw [Host.removeDirectory, Host.pass, bind_assoc,
    Action.runOn_bind_ok (Host.runOn_disturb .rmdir p h)]
  split
  · exact ⟨h.tree, rfl⟩
  · rw [pure_bind, Action.runOn_bind_ok (Action.runOn_get _)]
    generalize hrun : (Host.change p _).runOn _ = ended
    obtain ⟨outcome, t⟩ := ended
    cases outcome with
    | error failure =>
      rw [Host.change_eq_error hrun]
      exact ⟨h.tree, rfl⟩
    | ok _ =>
      obtain ⟨-, tree, -, rfl⟩ := Host.change_eq_ok.1 hrun
      exact ⟨tree, rfl⟩

theorem Host.deeds_removeDirectory (p : Path) (h : Host) :
    ((Host.removeDirectory p).runOn h).2.deeds = h.deeds ++ [.called .rmdir p] := by
  obtain ⟨tree, htree⟩ := Host.exists_tree_of_removeDirectory p h
  rw [htree]

theorem Host.failsByFault_removeDirectory {p : Path} (hnull : p.hasNull = false) :
    FailsByFault (Host.removeDirectory p) := by
  refine (Host.failsByFault_pass _ _).bind fun _ => ?_
  intro h e t hrun
  rw [Action.runOn_bind_ok (Action.runOn_get h)] at hrun
  exact Host.failsByFault_change hnull _ h e t hrun

/-- The outcome of an attempt to remove a directory says that the directory is gone. -/
def saysGone : Except Failure Unit → Bool
  | .ok () => true
  | .error (.os fault) => fault.code == OsFault.noEntry
  | .error _ => false

/-- An attempt to remove a group does not fail. -/
theorem runOn_tryRemove {p : Path} (hnull : p.hasNull = false) (h : Host) :
    (tryRemove p).runOn h =
      (.ok (saysGone ((Host.removeDirectory p).runOn h).1), ((Host.removeDirectory p).runOn h).2) := by
  rw [tryRemove, Action.runOn_onFault, Action.runOn_bind]
  cases hrun : (Host.removeDirectory p).runOn h with
  | mk outcome t =>
    cases outcome with
    | ok _ => rfl
    | error failure =>
      obtain ⟨fault, rfl⟩ := Host.failsByFault_removeDirectory hnull h failure t hrun
      rfl

/-- A pause is one call, and noted. -/
theorem Host.nap_snd (delay : Figure) (h : Host) :
    ((Host.nap delay).runOn h).2 =
      { h with
        naps := h.naps ++ [delay]
        deeds := h.deeds ++ [.called .sleep .empty]
        disturbances := (Disturbance.strike .sleep Path.empty.name h.disturbances).2 } := by
  rw [Host.nap, Action.runOn_bind_ok (Action.runOn_modify _ h), Host.pass,
    Action.runOn_bind_ok (Host.runOn_disturb .sleep .empty _)]
  split <;> rfl

theorem failsByFault_removeGroupIn {p : Path} (hnull : p.hasNull = false) (delay : Figure)
    (attempts : Nat) : FailsByFault (removeGroupIn p delay attempts) := by
  induction attempts with
  | zero => exact .pure _
  | succ attempts ih =>
    have htry : FailsByFault (tryRemove p) := by
      intro h e t hrun
      rw [runOn_tryRemove hnull] at hrun
      cases hrun
    refine htry.bind fun gone => ?_
    split
    · exact .pure _
    · split
      · exact .pure _
      · exact (FailsByFault.bind (.modify _) fun _ => Host.failsByFault_pass _ _).bind fun _ => ih

/-- Removing a group takes attempts and pauses only, and begins with an attempt. -/
theorem exists_removal {p : Path} (hnull : p.hasNull = false) (delay : Figure) (attempts : Nat)
    (h : Host) :
    ∃ more, ((removeGroupIn p delay (attempts + 1)).runOn h).2.deeds =
        h.deeds ++ .called .rmdir p :: more ∧
      ∀ deed ∈ more, deed = .called .rmdir p ∨ deed = .called .sleep .empty := by
  induction attempts generalizing h with
  | zero =>
    rw [removeGroupIn, Action.runOn_bind_ok (runOn_tryRemove hnull h)]
    refine ⟨[], ?_, by simp⟩
    split <;> exact Host.deeds_removeDirectory p h
  | succ attempts ih =>
    have hdeeds := Host.deeds_removeDirectory p h
    rw [removeGroupIn, Action.runOn_bind_ok (runOn_tryRemove hnull h)]
    generalize ((Host.removeDirectory p).runOn h).2 = t at hdeeds ⊢
    by_cases hgone : saysGone ((Host.removeDirectory p).runOn h).1 = true
    · rw [if_pos hgone]
      exact ⟨[], hdeeds, by simp⟩
    rw [if_neg hgone, if_neg (by omega), Action.runOn_bind]
    have hnap : ((Host.nap delay).runOn t).2.deeds = t.deeds ++ [.called .sleep .empty] := by
      rw [Host.nap_snd]
    cases hrun : (Host.nap delay).runOn t with
    | mk outcome u =>
      rw [hrun] at hnap
      cases outcome with
      | error failure =>
        refine ⟨[.called .sleep .empty], ?_, by simp⟩
        rw [hnap, hdeeds]
        simp
      | ok _ =>
        obtain ⟨more, hmore, hkinds⟩ := ih u
        refine ⟨.called .sleep .empty :: .called .rmdir p :: more, ?_, ?_⟩
        · rw [hmore, hnap, hdeeds]
          simp
        · intro deed hdeed
          rcases List.mem_cons.1 hdeed with rfl | hdeed
          · exact .inr rfl
          rcases List.mem_cons.1 hdeed with rfl | hdeed
          · exact .inl rfl
          · exact hkinds deed hdeed

/-- **A leaf is always removed by a removal**, which is no failure. -/
theorem runOn_destroy_removal (halive : leaf.destroyed = false) (hnull : leaf.path.hasNull = false)
    (h : Host) :
    ∃ t removal, Leaf.destroy.runOn (h, leaf) = (.ok (), (t, { leaf with destroyed := true })) ∧
      t.deeds = h.deeds ++ removal ∧ IsRemoval leaf removal ∧ h.CalledOnly t := by
  have hP := Host.treeless_calledOnly h
  have hcalled : Keeps h.CalledOnly (Leaf.removeAndReport leaf.path) :=
    keeps_removeAndReport hP.toUnobserving fun _ => hP.allows _ _
  have hkept := hcalled h (.refl h)
  obtain ⟨more, hdeeds, hkinds⟩ := exists_removal hnull removalDelay 4 h
  have hfaults : FailsByFault (do
      if ← removeGroup leaf.path then Host.report (.groupDestroyed leaf.path.text)
      else Host.report (.groupDestroyFailed leaf.path.text none)) := by
    refine (failsByFault_removeGroupIn hnull _ _).bind fun gone => ?_
    split <;> exact .modify _
  obtain ⟨_, t, hrun⟩ := hfaults.runOn_onFault
    (fun fault => Host.report (.groupDestroyFailed leaf.path.text (some fault.text)))
    (fun fault s => ⟨(), _, rfl⟩) h
  have hrun : (Leaf.removeAndReport leaf.path).runOn h = (.ok (), t) := hrun
  have hdone : t.deeds = h.deeds ++ .called .rmdir leaf.path :: more := by
    have hlead : Leads (fun u => u = h) (Did (h.deeds ++ .called .rmdir leaf.path :: more))
        (Leaf.removeAndReport leaf.path) := by
      refine Leads.onFault (Leads.bind ?_ fun gone => ?_) fun fault => Host.keeps_did_report _ _
      · rintro _ rfl
        exact hdeeds
      · split <;> exact Host.keeps_did_report _ _
    have hend := hlead h rfl
    rwa [hrun] at hend
  rw [hrun] at hkept
  refine ⟨t, .called .rmdir leaf.path :: more, ?_, hdone, ⟨rfl, ?_⟩, hkept⟩
  · rw [Leaf.runOn_destroy, halive, if_neg (by simp), hrun]
  · intro deed hdeed
    rcases List.mem_cons.1 hdeed with rfl | hdeed
    · exact .inl rfl
    · exact hkinds deed hdeed

end MemoryLimit
