import MemoryLimit.Proofs.Group.Creation

/-!
# The life of leaves

Any number of leaves are made on one host and used in any order, while others change the file tree
and any call may fail. What is done with a leaf stays within its directory, and a leaf that was
removed, or should have been, is left alone from then on, even if a directory of its name exists
again.

## Main definitions

* `Leaf.Use` — what is done with a leaf.
* `Session` — a host with the leaves that were made on it.
* `Session.run` — what a row of acts makes of a session.

## Main statements

* `Leaf.Use.sameOutside` — a use of a leaf changes nothing outside of its directory.
* `Leaf.Use.runOn_of_destroyed` — a use of a removed leaf changes nothing at all.
* `Session.run_ages` — what becomes of a leaf in a run.
* `Session.life_cycle` — the whole life of leaves.
-/
namespace MemoryLimit

open MemoryLimit.Action (Keeps)
open MemoryLimit.Host (Unobserving)

/-! ## What is done with a leaf -/

/-- The control files of a leaf that are written to. -/
inductive LeafFile where
  | memoryMax
  | swapMax
  | kill
deriving DecidableEq

/-- The name of a control file. -/
def LeafFile.name : LeafFile → String
  | memoryMax => ControlFile.memoryMax
  | swapMax => ControlFile.swapMax
  | kill => ControlFile.kill

theorem LeafFile.isFileName_name (file : LeafFile) : IsFileName file.name := by
  cases file with
  | memoryMax => exact ControlFile.isFileName_memoryMax
  | swapMax => exact ControlFile.isFileName_swapMax
  | kill => exact ControlFile.isFileName_kill

namespace Leaf

/-- What is done with a leaf. -/
inductive Use where
  | writeText (file : LeafFile) (value : String) (check : Bool)
  | writeNumber (file : LeafFile) (value : Int) (check : Bool)
  | kill
  | destroy
deriving DecidableEq

namespace Use

/-- A use of a leaf as a step. -/
def step : Use → Leaf.Step Unit
  | writeText file value check => Leaf.writeText file.name value check
  | writeNumber file value check => Leaf.writeNumber file.name value check
  | kill => Leaf.kill
  | destroy => Leaf.destroy

end Use

variable {h t : Host} {leaf leaf' : Leaf}

/-- A place is in the directory of a leaf. -/
def Owns (leaf : Leaf) (h : Host) (place : Place) : Prop :=
  leaf.path.placeFrom h.directory <+: place

/-- The trees agree outside of the directory of a leaf. -/
def SameOutside (leaf : Leaf) (h : Host) (t u : Tree) : Prop :=
  ∀ place, ¬ leaf.Owns h place → u.get? place = t.get? place

theorem SameOutside.trans {t u v : Tree} (h₁ : leaf.SameOutside h t u)
    (h₂ : leaf.SameOutside h u v) : leaf.SameOutside h t v := by
  intro place hplace
  rw [h₂ place hplace, h₁ place hplace]

/-- A control file of a leaf is in the directory of the leaf. -/
theorem allowsWriting_sameOutside {name : String} (hname : IsFileName name) :
    Host.AllowsWriting (h.Evolves (leaf.SameOutside h)) (leaf.path.child name) := by
  intro bytes
  refine Host.allows_evolves (leaf.SameOutside h) (fun _ _ _ => SameOutside.trans) ?_
  intro tree tree' hwrite place hplace
  have hgrows := Tree.grows_writeFile (Path.leads_child_of_isFileName hname) hwrite
  apply hgrows.same
  rintro rfl
  apply hplace
  rw [Owns, Path.placeFrom_child hname]
  exact List.prefix_append _ _

theorem keeps_removeAndReport_sameOutside :
    Keeps (h.Evolves (leaf.SameOutside h)) (removeAndReport leaf.path) := by
  apply keeps_removeAndReport (Host.unobserving_evolves _ h)
  intro vanish
  refine Host.allows_evolves (leaf.SameOutside h) (fun _ _ _ => SameOutside.trans) ?_
  intro tree tree' hremove
  exact (Tree.loses_removeDirectory hremove).1.same

namespace Use

/-- A use that is no removal leaves the leaf as it is, and changes nothing outside of its
directory. -/
theorem keeps_held (use : Use) (huse : use ≠ destroy) :
    Keeps (Held (h.Evolves (leaf.SameOutside h)) leaf) use.step := by
  have hP : Unobserving (h.Evolves (leaf.SameOutside h)) := Host.unobserving_evolves _ h
  cases use with
  | writeText file value check =>
    exact keeps_writeText hP (allowsWriting_sameOutside file.isFileName_name) value check
  | writeNumber file value check =>
    exact keeps_writeNumber hP (allowsWriting_sameOutside file.isFileName_name) value check
  | kill => exact keeps_kill hP (allowsWriting_sameOutside ControlFile.isFileName_kill)
  | destroy => exact absurd rfl huse

/-- **A use of a leaf changes nothing outside of its directory.** -/
theorem sameOutside (use : Use) (h : Host) (leaf : Leaf) :
    leaf.SameOutside h h.tree (use.step.runOn (h, leaf)).2.1.tree := by
  have hstart : h.Evolves (leaf.SameOutside h) h := .refl fun _ _ => rfl
  by_cases huse : use = destroy
  · subst huse
    rw [step, runOn_destroy]
    split
    · exact hstart.tree
    · exact (keeps_removeAndReport_sameOutside h hstart).tree
  · exact (keeps_held use huse (h, leaf) ⟨hstart, rfl⟩).1.tree

end Use

/-- What becomes of a leaf: its path and its limit stay, and once it was removed it stays so. -/
structure Ages (leaf leaf' : Leaf) : Prop where
  path_eq : leaf'.path = leaf.path
  limit_eq : leaf'.limit = leaf.limit
  destroyed : leaf.destroyed = true → leaf'.destroyed = true

theorem Ages.refl (leaf : Leaf) : leaf.Ages leaf :=
  ⟨rfl, rfl, fun h => h⟩

theorem Ages.trans {leaf'' : Leaf} (h₁ : leaf.Ages leaf') (h₂ : leaf'.Ages leaf'') :
    leaf.Ages leaf'' where
  path_eq := h₂.path_eq.trans h₁.path_eq
  limit_eq := h₂.limit_eq.trans h₁.limit_eq
  destroyed := fun h => h₂.destroyed (h₁.destroyed h)

namespace Use

/-- A removal marks the leaf, whether or not its directory could be removed. -/
theorem destroyed_of_destroy (h : Host) (leaf : Leaf) :
    (destroy.step.runOn (h, leaf)).2.2 = { leaf with destroyed := true } := by
  rw [step, runOn_destroy]
  split
  · rename_i hdestroyed
    rw [← hdestroyed]
  · rfl

theorem ages (use : Use) (h : Host) (leaf : Leaf) : leaf.Ages (use.step.runOn (h, leaf)).2.2 := by
  by_cases huse : use = destroy
  · subst huse
    rw [destroyed_of_destroy]
    exact ⟨rfl, rfl, fun _ => rfl⟩
  · have hheld : Held (h.Evolves (leaf.SameOutside h)) leaf (use.step.runOn (h, leaf)).2 :=
      keeps_held use huse (h, leaf) ⟨.refl fun _ _ => rfl, rfl⟩
    rw [hheld.2]
    exact .refl leaf

theorem runOn_writeText_of_destroyed (hleaf : leaf.destroyed = true) (file : LeafFile)
    (value : String) (check : Bool) :
    (writeText file value check).step.runOn (h, leaf) =
      (.error (.unavailable (.destroyed leaf.path.text)), (h, leaf)) := by
  rw [step, Leaf.writeText, Action.runOn_bind_ok (runOn_self h leaf), if_pos hleaf]
  rfl

theorem runOn_writeNumber_of_destroyed (hleaf : leaf.destroyed = true) (name : String)
    (value : Int) (check : Bool) :
    (Leaf.writeNumber name value check).runOn (h, leaf) =
      (.error (.unavailable (.destroyed leaf.path.text)), (h, leaf)) := by
  rw [Leaf.writeNumber, Action.runOn_bind_ok (runOn_self h leaf), if_pos hleaf]
  rfl

/-- **A use of a removed leaf changes nothing at all**, and makes no call. -/
theorem runOn_of_destroyed (use : Use) (hleaf : leaf.destroyed = true) :
    (use.step.runOn (h, leaf)).2 = (h, leaf) := by
  cases use with
  | writeText file value check => rw [runOn_writeText_of_destroyed hleaf]
  | writeNumber file value check => rw [step, runOn_writeNumber_of_destroyed hleaf]
  | destroy => rw [step, runOn_destroy, if_pos hleaf]
  | kill =>
    rw [step, Leaf.kill, Action.runOn_bind_ok (runOn_self h leaf)]
    -- the kernel's file may still be looked for
    have hlook : ((Host.pathExists (leaf.path.child ControlFile.kill)).runOn h).2 = h :=
      Host.keeps_pathExists (P := fun t => t = h) _ h rfl
    cases hfound : (Host.pathExists (leaf.path.child ControlFile.kill)).runOn h with
    | mk outcome t =>
      rw [hfound] at hlook
      cases hlook
      rw [Action.runOn_bind, runOn_onHost, hfound]
      cases outcome with
      | error failure => rfl
      | ok found =>
        cases found with
        | false => rfl
        | true =>
          simp only [if_true]
          rw [runOn_writeNumber_of_destroyed hleaf]

end Use

end Leaf

/-! ## Sessions -/

/-- A host with the leaves that were made on it, in order. -/
structure Session where
  host : Host
  leaves : List Leaf := []

namespace Session

/-- What happens in a session: a leaf is made, a leaf that was made is used, or others change the
file tree and what will be disturbed. -/
inductive Act where
  | make (settings : Settings) (limit : Limit)
  | use (i : Nat) (use : Leaf.Use)
  | others (tree : Tree) (disturbances : List Disturbance)

/-- One act: its outcome, and the session after it. A leaf that is made is added to the session. -/
def step (s : Session) : Act → Except Failure Unit × Session
  | .make settings limit =>
    match (Leaf.create settings limit).runOn s.host with
    | (.ok leaf, h) => (.ok (), { host := h, leaves := s.leaves ++ [leaf] })
    | (.error failure, h) => (.error failure, { s with host := h })
  | .use i use =>
    match s.leaves[i]? with
    | some leaf =>
      let (outcome, (h, leaf)) := use.step.runOn (s.host, leaf)
      (outcome, { host := h, leaves := s.leaves.set i leaf })
    | none => (.ok (), s)
  | .others tree disturbances =>
    (.ok (), { s with host := { s.host with tree := tree, disturbances := disturbances } })

/-- The session after a row of acts. -/
def run (s : Session) (acts : List Act) : Session :=
  acts.foldl (fun s act => (s.step act).2) s

variable {s : Session} {i j : Nat} {leaf : Leaf}

@[simp] theorem run_cons (s : Session) (act : Act) (acts : List Act) :
    s.run (act :: acts) = (s.step act).2.run acts := rfl

theorem run_append (s : Session) (before after : List Act) :
    s.run (before ++ after) = (s.run before).run after :=
  List.foldl_append

theorem step_use (hleaf : s.leaves[i]? = some leaf) (use : Leaf.Use) :
    s.step (.use i use) =
      ((use.step.runOn (s.host, leaf)).1,
        { host := (use.step.runOn (s.host, leaf)).2.1,
          leaves := s.leaves.set i (use.step.runOn (s.host, leaf)).2.2 }) := by
  rw [step, hleaf]

/-- The leaf that is used is the one that it makes of it. -/
theorem getElem?_step_use (hleaf : s.leaves[i]? = some leaf) (use : Leaf.Use) :
    (s.step (.use i use)).2.leaves[i]? = some (use.step.runOn (s.host, leaf)).2.2 := by
  obtain ⟨hi, -⟩ := List.getElem?_eq_some_iff.1 hleaf
  rw [step_use hleaf]
  simp [hi]

/-- The other leaves stay as they are. -/
theorem getElem?_step_use_of_ne (hleaf : s.leaves[i]? = some leaf) (use : Leaf.Use) (hij : j ≠ i) :
    (s.step (.use i use)).2.leaves[j]? = s.leaves[j]? := by
  rw [step_use hleaf]
  simp [Ne.symm hij]

/-- **What becomes of a leaf in an act**: it stays where it is, and it stays removed if it is. -/
theorem step_ages (act : Act) (hleaf : s.leaves[i]? = some leaf) :
    ∃ leaf', (s.step act).2.leaves[i]? = some leaf' ∧ leaf.Ages leaf' := by
  cases act with
  | make settings limit =>
    refine ⟨leaf, ?_, .refl leaf⟩
    rw [step]
    split
    · exact List.getElem?_append_left (List.getElem?_eq_some_iff.1 hleaf).1 ▸ hleaf
    · exact hleaf
  | use j use =>
    cases hused : s.leaves[j]? with
    | none =>
      refine ⟨leaf, ?_, .refl leaf⟩
      rw [step, hused]
      exact hleaf
    | some used =>
      by_cases hij : i = j
      · subst hij
        rw [hleaf] at hused
        cases hused
        exact ⟨_, getElem?_step_use hleaf use, use.ages s.host leaf⟩
      · refine ⟨leaf, ?_, .refl leaf⟩
        rw [getElem?_step_use_of_ne hused use hij, hleaf]
  | others tree disturbances => exact ⟨leaf, hleaf, .refl leaf⟩

/-- **What becomes of a leaf in a run.** -/
theorem run_ages (acts : List Act) (hleaf : s.leaves[i]? = some leaf) :
    ∃ leaf', (s.run acts).leaves[i]? = some leaf' ∧ leaf.Ages leaf' := by
  induction acts generalizing s leaf with
  | nil => exact ⟨leaf, hleaf, .refl leaf⟩
  | cons act acts ih =>
    obtain ⟨next, hnext, hages⟩ := step_ages act hleaf
    obtain ⟨last, hlast, hages'⟩ := ih hnext
    exact ⟨last, hlast, hages.trans hages'⟩

/-- A use of a removed leaf leaves the session as it is. -/
theorem step_use_of_destroyed (hleaf : s.leaves[i]? = some leaf) (hdestroyed : leaf.destroyed = true)
    (use : Leaf.Use) : (s.step (.use i use)).2 = s := by
  obtain ⟨hi, hget⟩ := List.getElem?_eq_some_iff.1 hleaf
  rw [step_use hleaf, use.runOn_of_destroyed hdestroyed, ← hget]
  simp

/-- **The life of leaves.** After any row of acts, whatever failed in it and whatever others did:
where a leaf is made next there is nothing yet; a use of a leaf changes nothing outside of its
directory, and no other leaf; and a leaf that was to be removed stays marked, so that writing to it
is refused and no use of it changes anything or makes any call. -/
theorem life_cycle (h : Host) (past : List Act) :
    let s := run { host := h } past
    (∀ settings limit leaf t, (Leaf.create settings limit).runOn s.host = (.ok leaf, t) →
      ¬ ∃ node, s.host.Has leaf.path node) ∧
    (∀ i leaf use, s.leaves[i]? = some leaf →
      leaf.SameOutside s.host s.host.tree (s.step (.use i use)).2.host.tree ∧
      ∀ j, j ≠ i → (s.step (.use i use)).2.leaves[j]? = s.leaves[j]?) ∧
    (∀ before after i first, past = before ++ .use i .destroy :: after →
      (run { host := h } before).leaves[i]? = some first →
      ∃ leaf, s.leaves[i]? = some leaf ∧ leaf.path = first.path ∧ leaf.destroyed = true ∧
        (∀ file value check, (s.step (.use i (.writeText file value check))).1 =
          .error (.unavailable (.destroyed leaf.path.text))) ∧
        (∀ file value check, (s.step (.use i (.writeNumber file value check))).1 =
          .error (.unavailable (.destroyed leaf.path.text))) ∧
        ∀ use, (s.step (.use i use)).2 = s) := by
  intro s
  refine ⟨fun settings limit leaf t hrun => Leaf.not_has_of_create hrun, ?_, ?_⟩
  · intro i leaf use hleaf
    refine ⟨?_, fun j hij => getElem?_step_use_of_ne hleaf use hij⟩
    rw [step_use hleaf]
    exact use.sameOutside s.host leaf
  · intro before after i first hpast hfirst
    -- the removal marks the leaf, and the acts after it leave the mark
    have hnext := getElem?_step_use hfirst .destroy
    rw [Leaf.Use.destroyed_of_destroy] at hnext
    obtain ⟨leaf, hleaf, hages⟩ := run_ages after hnext
    have hs : s = ((run { host := h } before).step (.use i .destroy)).2.run after := by
      rw [show s = run { host := h } past from rfl, hpast, run_append, run_cons]
    rw [← hs] at hleaf
    have hdestroyed := hages.destroyed rfl
    refine ⟨leaf, hleaf, hages.path_eq, hdestroyed, ?_, ?_,
      step_use_of_destroyed hleaf hdestroyed⟩
    · intro file value check
      rw [step_use hleaf, Leaf.Use.runOn_writeText_of_destroyed hdestroyed]
    · intro file value check
      rw [step_use hleaf, Leaf.Use.step, Leaf.Use.runOn_writeNumber_of_destroyed hdestroyed]

/-- A leaf whose removal fails for ever stays marked when its directory is there again. -/
theorem life_cycle_of_failed_removal :
    let h : Host := { Host.delegated with
      disturbances := [{ call := .rmdir, effect := .fail (.ofCode OsFault.busy) }] }
    let again : Tree := h.tree.insert ["m", "r", "g", "g00000002"] .directory
    let past : List Act := [.make Settings.delegated (.bytes 5), .use 0 .destroy, .others again []]
    ∃ leaf, (run { host := h } past).leaves[0]? = some leaf ∧ leaf.destroyed = true ∧
      ∀ use, ((run { host := h } past).step (.use 0 use)).2 = run { host := h } past := by
  intro h again past
  have hmade : ((run { host := h } [.make Settings.delegated (.bytes 5)]).leaves[0]?).isSome := by
    decide +kernel
  obtain ⟨first, hfirst⟩ := Option.isSome_iff_exists.1 hmade
  obtain ⟨-, -, hremoved⟩ := life_cycle h past
  obtain ⟨leaf, hleaf, -, hdestroyed, -, -, hsame⟩ :=
    hremoved [.make Settings.delegated (.bytes 5)] [.others again []] 0 first rfl hfirst
  exact ⟨leaf, hleaf, hdestroyed, hsame⟩

end Session

end MemoryLimit
