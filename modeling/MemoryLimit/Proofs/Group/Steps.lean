import MemoryLimit.Group.Leaf
import MemoryLimit.Proofs.Host.Nodes

/-!
# What is done with a group

Writing to a control file of a group changes that file alone, and removing a group takes away its
directory and the files in it. Where removals work, a group without groups in it is removed at the
first attempt.

## Main definitions

* `Host.RemovalsWork` — removing a directory goes as it does for the directory of a group.
* `Leaf.Held` — a property of the host, while a leaf stays as it is.

## Main statements

* `runOn_removeAndReport` — a group without groups in it is gone after its removal.
* `Leaf.keeps_writeText`, `Leaf.keeps_kill` — what writing to a leaf keeps.
* `Leaf.runOn_destroy` — a leaf is removed once.
-/
namespace MemoryLimit

open MemoryLimit.Action (Keeps)
open MemoryLimit.Host (Unobserving Allows AllowsWriting)

/-! ## Files of a group -/

namespace ControlFile

theorem isFileName_memoryMax : IsFileName memoryMax := ⟨by decide, by decide⟩

theorem isFileName_swapMax : IsFileName swapMax := ⟨by decide, by decide⟩

theorem isFileName_kill : IsFileName kill := ⟨by decide, by decide⟩

theorem isFileName_controllers : IsFileName controllers := ⟨by decide, by decide⟩

theorem isFileName_subtreeControl : IsFileName subtreeControl := ⟨by decide, by decide⟩

end ControlFile

/-! ## Writing to control files -/

section Keeping

variable {P : Host → Prop} {p : Path}

theorem keeps_writeValue (hP : Unobserving P) (hwrite : AllowsWriting P p) (value : String) :
    Keeps P (writeValue p value) :=
  (Host.keeps_writeText hP hwrite value).onFault fun _ => .throw _

theorem keeps_writeThenCheck (hP : Unobserving P) (hwrite : AllowsWriting P p) (value : String) :
    Keeps P (writeThenCheck p value) := by
  have hread := Host.keeps_readText hP p
  refine (keeps_writeValue hP hwrite value).bind fun _ =>
    (hread.onFault fun _ => .throw _).bind fun text => ?_
  dsimp only
  split
  · exact .throw _
  · exact .pure _

/-- The property still holds after the removal of a directory. -/
def Host.AllowsRemoval (P : Host → Prop) (p : Path) : Prop :=
  ∀ vanish, Allows P p fun t directory p => t.removeDirectory vanish directory p

theorem keeps_tryRemove (hP : Unobserving P) (hremove : Host.AllowsRemoval P p) :
    Keeps P (tryRemove p) :=
  ((Host.keeps_removeDirectory hP hremove).bind fun _ => .pure _).onFault fun _ => .pure _

theorem keeps_removeGroupIn (hP : Unobserving P) (hremove : Host.AllowsRemoval P p) (delay : Figure)
    (attempts : Nat) : Keeps P (removeGroupIn p delay attempts) := by
  induction attempts with
  | zero => exact .pure _
  | succ attempts ih =>
    refine (keeps_tryRemove hP hremove).bind fun gone => ?_
    split
    · exact .pure _
    · split
      · exact .pure _
      · exact (Host.keeps_nap hP delay).bind fun _ => ih

theorem keeps_removeAndReport (hP : Unobserving P) (hremove : Host.AllowsRemoval P p) :
    Keeps P (Leaf.removeAndReport p) := by
  have hreport := Host.keeps_report hP
  refine Keeps.onFault (.bind (keeps_removeGroupIn hP hremove _ _) fun gone => ?_)
    fun fault => hreport _
  split
  · exact hreport _
  · exact hreport _

end Keeping

/-! ## Removing a group -/

namespace Host

variable {h t : Host} {p : Path} {R : Tree → Tree → Prop}

/-- Removing a directory goes as it does for the directory of a group: its interface files go with
it, and the call itself is not disturbed. -/
structure RemovalsWork (h : Host) : Prop where
  vanish : h.interfaceFilesVanish = true
  undisturbed : ∀ d ∈ h.disturbances, d.call ≠ .rmdir

theorem RemovalsWork.of_evolves (hworks : h.RemovalsWork) (hevolves : h.Evolves R t) :
    t.RemovalsWork where
  vanish := hevolves.vanish_eq.trans hworks.vanish
  undisturbed := by
    intro d hd
    obtain ⟨e, he, hcall, -⟩ := hevolves.disturbances d hd
    rw [hcall]
    exact hworks.undisturbed e he

/-- A call passes by the disturbances that do not concern it. -/
theorem strike_append {call : Call} {name : String} {first : List Disturbance}
    (hfirst : ∀ d ∈ first, d.concerns call name = false) (rest : List Disturbance) :
    Disturbance.strike call name (first ++ rest) =
      ((Disturbance.strike call name rest).1, first ++ (Disturbance.strike call name rest).2) := by
  induction first with
  | nil => rfl
  | cons d first ih =>
    rw [List.cons_append, Disturbance.strike, hfirst d (by simp), if_neg (by simp),
      ih fun e he => hfirst e (List.mem_cons_of_mem _ he)]
    rfl

/-- A call that no disturbance concerns goes as it should and leaves the schedule. -/
theorem strike_of_not_concerned {call : Call} {name : String} {disturbances : List Disturbance}
    (hnone : ∀ d ∈ disturbances, d.concerns call name = false) :
    Disturbance.strike call name disturbances = (none, disturbances) := by
  have happend := strike_append hnone []
  rwa [Disturbance.strike, List.append_nil] at happend

theorem strike_eq_none {call : Call} {name : String} {disturbances : List Disturbance}
    (hcalls : ∀ d ∈ disturbances, d.call ≠ call) :
    (Disturbance.strike call name disturbances).1 = none := by
  rw [strike_of_not_concerned fun d hd => by simp [Disturbance.concerns, hcalls d hd]]

/-- Removing a group takes away nothing but its directory and what lies in it. -/
theorem allowsRemoval_loses (h : Host) (p : Path) :
    AllowsRemoval (h.Evolves (Tree.Loses (p.placeFrom h.directory))) p := by
  intro vanish
  refine allows_evolves (Tree.Loses (p.placeFrom h.directory)) (fun _ _ _ => Tree.Loses.trans) ?_
  intro tree tree' hremove
  exact (Tree.loses_removeDirectory hremove).1

/-- A directory without directories in it is removed where removals work. -/
theorem runOn_removeDirectory (hworks : h.RemovalsWork) (hwell : h.tree.WellFormed)
    (hhas : h.Has p .directory) (hname : Tree.endsInName p = true)
    (hbelow : ∀ q, Place.IsBelow q (p.placeFrom h.directory) → h.tree.get? q ≠ some .directory) :
    ∃ t, (removeDirectory p).runOn h = (.ok (), t) ∧
      t.tree.get? (p.placeFrom h.directory) = none := by
  obtain ⟨place, hplace, hnode⟩ := find_eq_ok_iff.1 hhas.find
  have hat := Tree.locate_eq_placeFrom hplace
  obtain ⟨tree, hremove⟩ := Tree.exists_removeDirectory hwell hplace hname hnode (hat ▸ hbelow)
  let u : Host := { h with deeds := h.deeds ++ [.called .rmdir p],
                           disturbances := (Disturbance.strike .rmdir p.name h.disturbances).2 }
  have hpass : (pass .rmdir p).runOn h = (.ok (), u) := by
    rw [pass, Action.runOn_bind_ok (runOn_disturb .rmdir p h), strike_eq_none hworks.undisturbed]
    rfl
  have hchange : (change p fun t directory p => t.removeDirectory u.interfaceFilesVanish directory
      p).runOn u = (.ok (), { u with tree := tree }) := by
    rw [change_eq_ok]
    refine ⟨hhas.hasNull, tree, ?_, rfl⟩
    rw [show u.interfaceFilesVanish = true from hworks.vanish]
    exact hremove
  refine ⟨{ u with tree := tree }, ?_, (Tree.loses_removeDirectory hremove).2⟩
  rw [removeDirectory, Action.runOn_bind_ok hpass, Action.runOn_bind_ok (Action.runOn_get u)]
  exact hchange

end Host

variable {h t : Host} {p : Path}

/-- **A group without groups in it is gone after its removal**, which takes one attempt. -/
theorem runOn_removeAndReport (hworks : h.RemovalsWork) (hwell : h.tree.WellFormed)
    (hhas : h.Has p .directory) (hname : Tree.endsInName p = true)
    (hbelow : ∀ q, Place.IsBelow q (p.placeFrom h.directory) → h.tree.get? q ≠ some .directory) :
    ∃ t, (Leaf.removeAndReport p).runOn h = (.ok (), t) ∧
      t.tree.get? (p.placeFrom h.directory) = none := by
  obtain ⟨t, hremove, hgone⟩ := Host.runOn_removeDirectory hworks hwell hhas hname hbelow
  have htry : (tryRemove p).runOn h = (.ok true, t) := by
    rw [tryRemove, Action.runOn_onFault, Action.runOn_bind_ok hremove, Action.runOn_pure]
  have hgroup : (removeGroup p).runOn h = (.ok true, t) := by
    rw [removeGroup, show removalAttempts.toNat = 4 + 1 from rfl, removeGroupIn,
      Action.runOn_bind_ok htry]
    rfl
  refine ⟨{ t with journal := t.journal ++ [.groupDestroyed p.text] }, ?_, hgone⟩
  rw [Leaf.removeAndReport, Action.runOn_onFault, Action.runOn_bind_ok hgroup]
  rfl

/-! ## Steps with a leaf -/

namespace Leaf

variable {α β : Type} {P : Host → Prop} {leaf : Leaf}

@[simp] theorem runOn_onHost (x : Action Host α) (h : Host) (leaf : Leaf) :
    (onHost x).runOn (h, leaf) = ((x.runOn h).1, ((x.runOn h).2, leaf)) := rfl

theorem onHost_eq_iff {x : Action Host α} {leaf' : Leaf} {outcome : Except Failure α} :
    (onHost x).runOn (h, leaf) = (outcome, (t, leaf')) ↔ x.runOn h = (outcome, t) ∧ leaf' = leaf := by
  rw [runOn_onHost, Prod.mk.injEq, Prod.mk.injEq, Prod.ext_iff]
  constructor
  · rintro ⟨houtcome, hhost, hleaf⟩
    exact ⟨⟨houtcome, hhost⟩, hleaf.symm⟩
  · rintro ⟨⟨houtcome, hhost⟩, hleaf⟩
    exact ⟨houtcome, hhost, hleaf.symm⟩

@[simp] theorem runOn_self (h : Host) (leaf : Leaf) :
    self.runOn (h, leaf) = (.ok leaf, (h, leaf)) := rfl

/-- The host has a property, and the leaf is still the one it was. -/
def Held (P : Host → Prop) (leaf : Leaf) (s : Host × Leaf) : Prop :=
  P s.1 ∧ s.2 = leaf

theorem keeps_onHost {x : Action Host α} (hx : Keeps P x) : Keeps (Held P leaf) (onHost x) := by
  rintro ⟨h, leaf'⟩ ⟨hh, hleaf⟩
  exact ⟨hx h hh, hleaf⟩

/-- What is done with the leaf that there is. -/
theorem keeps_self_bind {f : Leaf → Step β} (hf : Keeps (Held P leaf) (f leaf)) :
    Keeps (Held P leaf) (self >>= f) := by
  rintro ⟨h, leaf'⟩ ⟨hh, hleaf⟩
  change leaf' = leaf at hleaf
  subst hleaf
  rw [Action.runOn_bind_ok (runOn_self h leaf')]
  exact hf (h, leaf') ⟨hh, rfl⟩

/-- **Writing to a leaf** keeps what writing the control file keeps. -/
theorem keeps_writeText {name : String} (hP : Unobserving P)
    (hwrite : AllowsWriting P (leaf.path.child name)) (value : String) (check : Bool) :
    Keeps (Held P leaf) (writeText name value check) := by
  refine keeps_self_bind ?_
  split
  · exact .throw _
  · refine keeps_onHost ?_
    split
    · exact keeps_writeThenCheck hP hwrite value
    · exact keeps_writeValue hP hwrite value

theorem keeps_writeNumber {name : String} (hP : Unobserving P)
    (hwrite : AllowsWriting P (leaf.path.child name)) (value : Int) (check : Bool) :
    Keeps (Held P leaf) (writeNumber name value check) := by
  refine keeps_self_bind ?_
  split
  · exact .throw _
  · split
    · exact keeps_writeText hP hwrite _ check
    · exact .throw _

theorem keeps_kill (hP : Unobserving P)
    (hwrite : AllowsWriting P (leaf.path.child ControlFile.kill)) :
    Keeps (Held P leaf) kill := by
  refine keeps_self_bind ?_
  refine (keeps_onHost (Host.keeps_pathExists _)).bind fun found => ?_
  split
  · exact keeps_writeNumber hP hwrite 1 false
  · exact .pure _

/-- **A leaf is removed once**: after that nothing is done. -/
theorem runOn_destroy (h : Host) (leaf : Leaf) :
    destroy.runOn (h, leaf) =
      if leaf.destroyed then (.ok (), (h, leaf))
      else
        (((removeAndReport leaf.path).runOn h).1,
          (((removeAndReport leaf.path).runOn h).2, { leaf with destroyed := true })) := by
  rw [destroy, Action.runOn_bind_ok (runOn_self h leaf)]
  split
  · rfl
  · rw [Action.runOn_bind_ok (Action.runOn_modify _ _)]
    rfl

end Leaf

end MemoryLimit
