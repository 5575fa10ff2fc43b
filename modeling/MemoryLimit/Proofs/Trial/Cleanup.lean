import MemoryLimit.Proofs.Group.Creation
import MemoryLimit.Proofs.Trial.Steps

/-!
# No run leaves a group behind

A run makes a leaf and removes it again, whatever becomes of the command and whatever calls fail in
between. Where removals work, the directories below the directory of our groups are the same after
the run as before. The one thing that a run makes elsewhere are the directories for its output, so
those have to lie outside.

## Main definitions

* `Path.Passes` — the places at which a path may need directories.
* `Tree.SameBelow` — the same directories lie below a place.

## Main statements

* `sameBelow_of_create` — the leaf that was made for a command is gone after it.
* `run_leaves_no_group` — the directories of our groups are the same after a run.
-/
namespace MemoryLimit

open MemoryLimit.Action (Keeps)
open MemoryLimit.Host (Grounded)

/-- A path leads through a place, or to it, by a name of its own, so that a directory may have to
be made there before one can be made at the path. -/
def Path.Passes (p : Path) (directory place : Place) : Prop :=
  ∃ beginning : Path, beginning.IsStart p ∧ Tree.endsInName beginning = true ∧
    place = beginning.placeFrom directory

/-- The same directories lie below a place. -/
def Tree.SameBelow (root : Place) (t u : Tree) : Prop :=
  ∀ place, Place.IsBelow place root →
    (u.get? place = some .directory ↔ t.get? place = some .directory)

variable {h t u : Host} {settings : Settings} {command : Command} {leaf : Leaf} {root : Place}

theorem Tree.SameBelow.trans {t u v : Tree} (h₁ : t.SameBelow root u) (h₂ : u.SameBelow root v) :
    t.SameBelow root v :=
  fun place hplace => (h₂ place hplace).trans (h₁ place hplace)

/-- Nothing is new below a place if all that is new lies elsewhere. -/
theorem Tree.Adds.sameBelow {t u : Tree} {new : Place → Prop} (hadds : t.Adds new u)
    (hnew : ∀ place, new place → ¬ Place.IsBelow place root) : t.SameBelow root u := by
  intro place hplace
  constructor
  · intro hdirectory
    rcases hadds.new_of_directory place hdirectory with hold | hmade
    · exact hold
    · exact absurd hplace (hnew place hmade)
  · intro hdirectory
    exact hadds.directories place hdirectory

/-- Nothing is missing below a place if all that is missing lies elsewhere. -/
theorem Tree.Loses.sameBelow {t u : Tree} {gone : Place} (hloses : t.Loses gone u)
    (hwell : t.WellFormed) (hgone : ¬ Place.IsBelow gone root) : t.SameBelow root u := by
  intro place hplace
  apply hloses.directory_iff hwell
  rintro rfl
  exact hgone hplace

theorem Place.IsBelow.trans {place middle root : Place} (h₁ : Place.IsBelow place middle)
    (h₂ : Place.IsBelow middle root) : Place.IsBelow place root := by
  refine ⟨h₂.1.trans h₁.1, ?_⟩
  rintro rfl
  exact h₂.2 (h₂.1.eq_of_length_le h₁.1.length_le).symm

/-! ## A run in a leaf -/

/-- The places of the directories that a run may make for its output. -/
def Command.OutputAt (command : Command) (h : Host) (place : Place) : Prop :=
  ∃ p ∈ command.directory, p.Passes h.directory place

/-- **A run in a leaf** makes no directories but those for its output, and leaves the leaf as it
is. -/
theorem grows_runIn {outcome : Except Failure (Usage × String)} {leaf' : Leaf}
    (hname : Tree.endsInName leaf.path = true)
    (hrun : (runIn settings command).runOn (h, leaf) = (outcome, (t, leaf'))) :
    h.Grows (command.OutputAt h) (fun _ => True) t ∧ leaf' = leaf := by
  let P := h.Grows (command.OutputAt h) fun _ => True
  have hP : Grounded P := Host.grounded_evolves _ h
  have hkept : Keeps (Leaf.Held P leaf) (runIn settings command) := by
    have hnames := Tree.names_ne_nil_of_endsInName hname
    apply keeps_runIn hP.unrecording
    · intro _ _ file _
      exact Host.allowsWriting (Path.leads_child hnames file.1) trivial
    · exact Host.allowsWriting (Path.leads_child hnames _) trivial
    · intro directory hdirectory
      refine ⟨fun beginning hstart => Host.allows_makeDirectory (fun hends => ?_) trivial, ?_, ?_⟩
      · exact ⟨directory, hdirectory, beginning, hstart, hends, rfl⟩
      · exact Host.allowsWriting (Path.leads_child_of_isFileName ⟨by decide, by decide⟩) trivial
      · exact Host.allowsWriting (Path.leads_child_of_isFileName ⟨by decide, by decide⟩) trivial
  exact hkept.after hrun ⟨.refl _ _ h, rfl⟩

/-- Whatever became of the first action, the second one has run. -/
theorem Action.runOn_thenAlways_snd {σ α : Type} (x : Action σ α) (last : Action σ Unit) (s : σ) :
    ((x.thenAlways last).runOn s).2 = (last.runOn (x.runOn s).2).2 := by
  rw [runOn_thenAlways]
  cases last.runOn (x.runOn s).2 with
  | mk outcome t => cases outcome <;> rfl

/-- **The leaf is gone after the command**, however that ended: below a place that the output lies
outside of there are the same directories as before the leaf was made. -/
theorem sameBelow_of_run_in_leaf {made : Host} (hwell : h.tree.WellFormed)
    (hworks : h.RemovalsWork) (hleaf : leaf.destroyed = false)
    (hfresh : h.MakesFresh leaf.path made)
    (hwritten : ∃ touched, made.Grows (fun _ => False) touched t)
    (houtput : ∀ place, command.OutputAt h place → ¬ Place.IsBelow place root)
    {outcome : Except Failure ((Usage × String) × Leaf)}
    (hrun : (Action.withSecond leaf (Action.thenAlways (runIn settings command) Leaf.destroy)).runOn
      t = (outcome, u)) : h.Evolves (Tree.SameBelow root) u := by
  obtain ⟨touched, hwritten⟩ := hwritten
  rw [Action.runOn_withSecond, Action.runOn_thenAlways_snd, Prod.mk.injEq] at hrun
  obtain ⟨-, hend⟩ := hrun
  cases hbody : (runIn settings command).runOn (t, leaf) with
  | mk ended s =>
    obtain ⟨v, leaf'⟩ := s
    obtain ⟨hgrown, rfl⟩ := grows_runIn hfresh.endsInName hbody
    rw [hbody, Leaf.runOn_destroy, hleaf, if_neg (by simp)] at hend
    have hplaces : command.OutputAt t = command.OutputAt h := by
      unfold Command.OutputAt
      rw [hwritten.directory_eq, hfresh.grows.directory_eq]
    rw [hplaces] at hgrown
    have hlater : made.Grows (command.OutputAt h) (fun _ => True) v :=
      (hwritten.mono (fun _ => False.elim) fun _ _ => trivial).trans hgrown
    by_cases hbelow : Place.IsBelow (leaf'.path.placeFrom h.directory) root
    · -- no output lies in the leaf, so it can be removed
      obtain ⟨y, hremove, hadds⟩ := hfresh.removed hwell hworks hlater
        fun q hq hout => houtput q hout (hq.trans hbelow)
      rw [hremove] at hend
      rw [← show y = u from hend]
      exact hadds.mono fun _ _ hnew => hnew.sameBelow houtput
    · -- the leaf lies elsewhere, and so does everything that its removal takes away
      have hvdirectory : v.directory = h.directory :=
        hlater.directory_eq.trans hfresh.grows.directory_eq
      have hloses : v.Evolves (Tree.Loses (leaf'.path.placeFrom v.directory)) u := by
        rw [← show ((Leaf.removeAndReport leaf'.path).runOn v).2 = u from hend]
        exact keeps_removeAndReport (Host.unobserving_evolves _ v) (Host.allowsRemoval_loses v _) v
          (.refl (.refl _ _))
      rw [hvdirectory] at hloses
      have hvwell : v.tree.WellFormed :=
        hlater.tree.wellFormed (hfresh.grows.tree.wellFormed hwell)
      have hbefore : h.tree.SameBelow root made.tree := by
        apply hfresh.grows.tree.toAdds.sameBelow
        rintro place rfl
        exact hbelow
      have hafter : made.tree.SameBelow root v.tree := hlater.tree.toAdds.sameBelow houtput
      exact (hfresh.grows.comp hlater (hbefore.trans hafter)).comp hloses
        ((hbefore.trans hafter).trans (hloses.tree.sameBelow hvwell hbelow))

/-! ## A whole run -/

/-- **The leaf that was made for a command is gone after it**, and below a place that the directory of
our groups is not below of there are the same directories as before it was made. -/
theorem sameBelow_of_create {limit : Limit} (hwell : h.tree.WellFormed) (hworks : h.RemovalsWork)
    (hparent : ∀ place, place = (settings.parentOn h).placeFrom h.directory →
      ¬ Place.IsBelow place root)
    (houtput : ∀ place, command.OutputAt h place → ¬ Place.IsBelow place root)
    (hcreate : (Leaf.create settings limit).runOn h = (.ok leaf, t))
    {outcome : Except Failure ((Usage × String) × Leaf)}
    (hrun : (Action.withSecond leaf (Action.thenAlways (runIn settings command) Leaf.destroy)).runOn
      t = (outcome, u)) : h.Evolves (Tree.SameBelow root) u := by
  rcases Leaf.create_cases hcreate with ⟨_, hfail, -⟩ |
    ⟨n, parent, count, ready, made, leaf', hok, -, hprepare, hleaf, hfresh, w, hset, hsame⟩
  · cases hfail
  cases hok
  -- the directory of our groups was made ready, the leaf was made in it, and its limits written
  have hready := Leaf.prepareParent_grows hprepare
  have hdestroyed : leaf.destroyed = false := by rw [hleaf]
  rcases Leaf.setLimits_cases hdestroyed hset with ⟨_, _, hfail, -⟩ | ⟨-, -, hlimits, -⟩
  · cases hfail
  have hplaces : command.OutputAt ready = command.OutputAt h := by
    unfold Command.OutputAt
    rw [hready.directory_eq]
  have hbelow := sameBelow_of_run_in_leaf (hready.tree.wellFormed hwell)
    (hworks.of_evolves hready) hdestroyed hfresh ⟨_, hlimits.trans (.of_eq hsame)⟩
    (by rwa [hplaces]) hrun
  exact hready.comp hbelow ((hready.tree.toAdds.sameBelow hparent).trans hbelow.tree)

/-- **No run leaves a group behind.** Whatever the command does and whatever calls fail but
removals, the directories below the directory of our groups are the same after a run as before,
if no directory for its output has to be made among them. -/
theorem run_leaves_no_group (settings : Settings) (command : Command) (limit : Limit) (h : Host)
    (hwell : h.tree.WellFormed) (hworks : h.RemovalsWork)
    (houtside : ∀ p ∈ command.directory, ∀ place, p.Passes h.directory place →
      ¬ Place.IsBelow place ((settings.parentOn h).placeFrom h.directory)) :
    ∀ place, Place.IsBelow place ((settings.parentOn h).placeFrom h.directory) →
      ((run settings command limit).runOn h).2.tree.isDirectory place =
        h.tree.isDirectory place := by
  suffices hsame : h.Evolves (Tree.SameBelow ((settings.parentOn h).placeFrom h.directory))
      ((run settings command limit).runOn h).2 by
    intro place hplace
    rw [Bool.eq_iff_iff, Tree.isDirectory_iff, Tree.isDirectory_iff]
    exact hsame.tree place hplace
  generalize hroot : (settings.parentOn h).placeFrom h.directory = root at houtside ⊢
  cases hrun : (run settings command limit).runOn h with
  | mk outcome u =>
    rw [run] at hrun
    split at hrun
    · cases hrun
      exact .refl fun _ _ => .rfl
    have hparent : ∀ place, place = (settings.parentOn h).placeFrom h.directory →
        ¬ Place.IsBelow place root := by
      rintro place rfl hplace
      exact hplace.2 hroot
    rcases Action.runOn_bind_cases hrun with ⟨failure, hcreate, rfl⟩ | ⟨leaf, t, hcreate, htrial⟩
    · rcases Leaf.create_cases hcreate with ⟨_, -, hadds⟩ | ⟨_, _, _, _, _, _, hok, -⟩
      · exact (hadds hwell hworks).mono fun _ _ hnew => hnew.sameBelow hparent
      · cases hok
    have houtput : ∀ place, command.OutputAt h place → ¬ Place.IsBelow place root := by
      rintro place ⟨p, hp, hpasses⟩
      exact houtside p hp place hpasses
    rcases Action.runOn_bind_cases htrial with ⟨failure, hbody, rfl⟩ | ⟨result, v, hbody, hend⟩
    · exact sameBelow_of_create hwell hworks hparent houtput hcreate hbody
    · -- nothing but the status of the start is looked at afterwards
      have hgone := sameBelow_of_create hwell hworks hparent houtput hcreate hbody
      have hlast := Host.grounded_evolves (Tree.SameBelow root) h
      refine Keeps.after ?_ hend hgone
      obtain ⟨⟨usage, status⟩, leaf'⟩ := result
      dsimp only
      split
      · exact (Host.keeps_report hlast.unobserving _).bind fun _ => .pure _
      · exact .throw _

/-- The wait for the command is interrupted and its processor time cannot be read, and the output
goes to a directory that has to be made: the group of the run is gone, and the other one is not. -/
theorem run_leaves_no_group_interrupted :
    let h : Host := { Host.delegated with
      child := { interrupted := true, groupFiles := [("cpu.stat", .empty)] }
      disturbances := [{ call := .read, name := some "cpu.stat", effect := .fail (.ofCode 5) }] }
    let command : Command := { words := ["true"], directory := some (.read "/out/run") }
    let u := ((run Settings.delegated command (.bytes 5)).runOn h).2
    h.tree.WellFormed ∧ h.RemovalsWork ∧
    (∀ p ∈ command.directory, ∀ place, p.Passes h.directory place →
      ¬ Place.IsBelow place ((Settings.delegated.parentOn h).placeFrom h.directory)) ∧
    u.tree.isDirectory ["m", "r", "g", "g00000001"] = true ∧
    u.tree.isDirectory ["m", "r", "g", "g00000002"] = false := by
  intro h command u
  have hworks : h.RemovalsWork := ⟨rfl, by simp [h]⟩
  have hparent : (Settings.delegated.parentOn h).placeFrom h.directory = ["m", "r", "g"] := by
    decide
  have houtside : ∀ p ∈ command.directory, ∀ place, p.Passes h.directory place →
      ¬ Place.IsBelow place ((Settings.delegated.parentOn h).placeFrom h.directory) := by
    rintro p hp place ⟨beginning, hstart, -, rfl⟩ ⟨hbelow, -⟩
    cases hp
    rw [hparent, Path.placeFrom, hstart.isAbsolute_eq] at hbelow
    have hbeginning : beginning.names ∈ List.inits ["out", "run"] :=
      (List.mem_inits _ _).2 hstart.names
    generalize beginning.names = names at hbelow hbeginning
    fin_cases hbeginning <;> revert hbelow <;> decide
  have hkept := run_leaves_no_group Settings.delegated command (.bytes 5) h
    Host.wellFormed_delegated hworks houtside
  rw [hparent] at hkept
  refine ⟨Host.wellFormed_delegated, hworks, houtside, ?_, ?_⟩
  · rw [hkept _ ⟨by decide, by decide⟩]
    decide
  · rw [hkept _ ⟨by decide, by decide⟩]
    decide

end MemoryLimit
