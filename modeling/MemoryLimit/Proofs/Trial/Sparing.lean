import MemoryLimit.Proofs.Host.Replacing
import MemoryLimit.Proofs.Trial.Cleanup
import MemoryLimit.Proofs.Usage.Saving

/-!
# What a run leaves alone

A run writes to the control files of its groups and to the files for the output, and removes its group.
A file that lies elsewhere is what it was before the run, and nothing was written to the standard
output. What a run records are numbers that there are: they are rounded results, or were read.

## Main definitions

* `Command.Avoids` — a place that a run of a command does not write to.

## Main statements

* `keeps_run` — what a run keeps.
* `keeps_run_spares` — a run leaves a file alone that it does not write to.
* `exact_of_run` — what a run records are numbers that there are.
-/
namespace MemoryLimit

open MemoryLimit.Action (Keeps)
open MemoryLimit.Host (Unrecording AllowsGroups AllowsGroupFiles)

variable {P : Host → Prop} {settings : Settings} {command : Command}

/-! ## What a run keeps -/

/-- The leaf of a run has a name of its own in the directory of our groups. -/
theorem Leaf.path_of_create {limit : Limit} {h t : Host} {leaf : Leaf}
    (hrun : (create settings limit).runOn h = (.ok leaf, t)) :
    ∃ count, leaf.path = Host.freshPath (settings.parentOn h) settings.groupDirectory count := by
  rcases create_cases hrun with ⟨_, hfail, -⟩ | ⟨_, _, count, _, _, _, hok, -, hparent, rfl, -⟩
  · cases hfail
  · cases hok
    rw [parentOn_of_prepareParent hparent]
    exact ⟨count, rfl⟩

/-- **A run keeps** what making and removing groups keeps, and writing the files of the process and those
for the output. -/
theorem keeps_run (hP : Unrecording P) (hgroups : AllowsGroups P settings)
    (hfiles : ∀ h, P h → ∀ count,
      AllowsGroupFiles P (Host.freshPath (settings.parentOn h) settings.groupDirectory count))
    (houtput : ∀ directory ∈ command.directory, AllowsOutput P directory) (limit : Limit) :
    Keeps P (run settings command limit) := by
  rw [run]
  split
  · exact .throw _
  refine Keeps.bind_of_gives
    (fun leaf => ∃ h count, P h ∧
      leaf.path = Host.freshPath (settings.parentOn h) settings.groupDirectory count)
    (Leaf.keeps_create hP.toUnobserving hgroups limit) ?_ ?_
  · intro h leaf t hh hcreate
    obtain ⟨count, hpath⟩ := Leaf.path_of_create hcreate
    exact ⟨h, count, hh, hpath⟩
  rintro leaf ⟨h, count, hh, hpath⟩
  have hgroup := hpath ▸ hgroups.group h hh count
  refine Keeps.bind ?_ fun ended => ?_
  · -- whatever became of the command, the leaf is removed after it
    intro u hu
    have hbody := keeps_runIn hP (hpath ▸ hfiles h hh count)
      (hgroup.write _ ControlFile.isFileName_kill) houtput settings (u, leaf) ⟨hu, rfl⟩
    rw [Action.runOn_withSecond, Action.runOn_thenAlways_snd]
    exact (Leaf.keeps_destroy hP.toUnobserving hgroup.remove _
      ⟨hbody.1, congrArg Leaf.path hbody.2⟩).1
  · dsimp only
    split
    · exact (Host.keeps_report hP.toUnobserving _).bind fun _ => .pure _
    · exact .throw _

/-! ## What a run spares -/

namespace Tree

/-- A removal spares a file that does not lie in the directory that is removed. -/
theorem sameFile_removeDirectory {t u : Tree} {vanish : Bool} {directory place : Place} {p : Path}
    (hplace : ¬ p.placeFrom directory <+: place)
    (h : t.removeDirectory vanish directory p = .ok u) : t.SameFile place u :=
  sameFile_of_get? ((loses_removeDirectory h).1.same place hplace)

end Tree

/-- A place that a run of a command does not write to: it lies in no group of ours, and neither is it
where the output goes. -/
structure Command.Avoids (command : Command) (settings : Settings) (h : Host) (place : Place) :
    Prop where
  control :
    ((settings.parentOn h).child ControlFile.subtreeControl).placeFrom h.directory ≠ place
  group : ∀ count, ¬ (Host.freshPath (settings.parentOn h) settings.groupDirectory count).placeFrom
    h.directory <+: place
  groupFiles : ∀ file ∈ h.child.groupFiles, IsFileName file.1
  output : ∀ directory ∈ command.directory,
    (directory.child "stdout.log").placeFrom h.directory ≠ place ∧
      (directory.child "stderr.log").placeFrom h.directory ≠ place

variable {h : Host} {place : Place}

/-- A file of a group does not lie elsewhere. -/
theorem placeFrom_child_ne_of_outside {p : Path} {name : String} {directory : Place}
    (hname : IsFileName name) (hplace : ¬ p.placeFrom directory <+: place) :
    (p.child name).placeFrom directory ≠ place := by
  rw [Path.placeFrom_child hname]
  rintro rfl
  exact hplace (List.prefix_append _ _)

/-- A place outside the directory of our groups lies in no group of ours. -/
theorem Command.avoids_of_outside (hname : '/' ∉ settings.groupDirectory.toList)
    (houtside : ¬ (settings.parentOn h).placeFrom h.directory <+: place)
    (hfiles : ∀ file ∈ h.child.groupFiles, IsFileName file.1)
    (houtput : ∀ directory ∈ command.directory,
      (directory.child "stdout.log").placeFrom h.directory ≠ place ∧
        (directory.child "stderr.log").placeFrom h.directory ≠ place) :
    command.Avoids settings h place where
  control := placeFrom_child_ne_of_outside ControlFile.isFileName_subtreeControl houtside
  group count := by
    rw [Host.placeFrom_freshPath (Host.isFileName_append_freshSuffix hname count)]
    exact fun hprefix => houtside ((List.prefix_append _ _).trans hprefix)
  groupFiles := hfiles
  output := houtput

theorem Host.unrecording_spares (place : Place) (h : Host) : Unrecording (h.Spares place) where
  toUnobserving := unobserving_spares place h
  noted := fun s deeds hs =>
    { hs with toEvolves := (grounded_evolves _ h).unrecording.noted s deeds hs.toEvolves }
  launched := fun s launches hs =>
    { hs with toEvolves := (grounded_evolves _ h).unrecording.launched s launches hs.toEvolves }

/-- The same user has the directory of groups at the same path. -/
theorem Settings.parentOn_of_spares {s : Host} (hs : h.Spares place s) :
    settings.parentOn s = settings.parentOn h := by
  rw [parentOn, parentOn, rootOn, rootOn, hs.userId]

theorem Command.Avoids.allowsGroups (havoids : command.Avoids settings h place) :
    AllowsGroups (h.Spares place) settings where
  make _ := Host.allows_makeDirectory_spares
  control s hs := by
    rw [Settings.parentOn_of_spares hs]
    exact Host.allowsWriting_spares havoids.control
  group s hs count := by
    rw [Settings.parentOn_of_spares hs]
    exact ⟨fun name hname =>
      Host.allowsWriting_spares (placeFrom_child_ne_of_outside hname (havoids.group count)),
      fun _ => Host.allows_spares fun _ _ => Tree.sameFile_removeDirectory (havoids.group count)⟩

/-- **A run leaves a file alone** that it does not write to, and prints nothing. -/
theorem keeps_run_spares (havoids : command.Avoids settings h place) (limit : Limit) :
    Keeps (h.Spares place) (run settings command limit) := by
  refine keeps_run (Host.unrecording_spares place h) havoids.allowsGroups ?_ ?_ limit
  · intro s hs count u hu file hfile
    rw [Settings.parentOn_of_spares hs]
    rw [hu.child] at hfile
    exact Host.allowsWriting_spares
      (placeFrom_child_ne_of_outside (havoids.groupFiles file hfile) (havoids.group count))
  · intro directory hdirectory
    obtain ⟨houtput, herrors⟩ := havoids.output directory hdirectory
    exact ⟨fun _ _ => Host.allows_makeDirectory_spares, Host.allowsWriting_spares houtput,
      Host.allowsWriting_spares herrors⟩

/-! ## What a run records -/

theorem held_of_microseconds {n : ℤ} {d : Decimal} (h : microseconds n = .ok d) : d.Held := by
  rw [microseconds] at h
  cases hdiv : Context.standard.divNumber (.ofInt n) (.ofInt 1000000) with
  | ok x =>
    rw [hdiv] at h
    cases h
    exact Context.isExact_of_divNumber hdiv
  | error signal =>
    rw [hdiv] at h
    cases h

theorem held_of_elapsed {start now : Binary64} {wall : Decimal} (h : elapsed start now = .ok wall) :
    wall.Held := by
  rw [elapsed] at h
  exact held_of_readDecimal (mapError_eq_ok.1 (mapError_eq_ok.1 h))

theorem exact_of_collect {leaf : Leaf} {start : Binary64} {exitCode : ℤ} {usage : Usage} {t : Host}
    (hrun : (collect leaf start exitCode).runOn h = (.ok usage, t)) : usage.Exact := by
  obtain ⟨cpu, _, hcpu, hrun⟩ := Action.runOn_bind_eq_ok.1 hrun
  obtain ⟨now, _, -, hrun⟩ := Action.runOn_bind_eq_ok.1 hrun
  obtain ⟨wall, _, hwall, hrun⟩ := Action.runOn_bind_eq_ok.1 hrun
  obtain ⟨load, _, -, hrun⟩ := Action.runOn_bind_eq_ok.1 hrun
  obtain ⟨_, _, -, hrun⟩ := Action.runOn_bind_eq_ok.1 hrun
  cases hrun
  rw [Action.runOn_liftM] at hwall
  refine ⟨?_, held_of_elapsed (Prod.mk.inj hwall).1⟩
  rcases cpuOrZero_eq_ok hcpu with rfl | ⟨n, hseconds⟩
  · exact show (Decimal.ofInt 0).Held by decide
  · exact held_of_microseconds hseconds

theorem exact_of_runIn {s s' : Host × Leaf} {usage : Usage} {status : String}
    (hrun : (runIn settings command).runOn s = (.ok (usage, status), s')) : usage.Exact := by
  obtain ⟨leaf, _, -, hrun⟩ := Action.runOn_bind_eq_ok.1 hrun
  obtain ⟨start, _, -, hrun⟩ := Action.runOn_bind_eq_ok.1 hrun
  obtain ⟨code, _, -, hrun⟩ := Action.runOn_bind_eq_ok.1 hrun
  obtain ⟨_, _, -, hrun⟩ := Action.runOn_bind_eq_ok.1 hrun
  obtain ⟨collected, u, hcollect, hrun⟩ := Action.runOn_bind_eq_ok.1 hrun
  cases hrun
  exact exact_of_collect (Leaf.onHost_eq_iff.1 hcollect).1

/-- What both actions answer with is what the first one answered with. -/
theorem Action.thenAlways_eq_ok {σ α : Type} {x : Action σ α} {last : Action σ Unit} {s t : σ} {a : α}
    (hrun : (x.thenAlways last).runOn s = (.ok a, t)) : ∃ u, x.runOn s = (.ok a, u) := by
  rw [runOn_thenAlways] at hrun
  split at hrun
  · exact ⟨_, Prod.ext (Prod.mk.inj hrun).1 rfl⟩
  · cases hrun

/-- **What a run records** are numbers that there are. -/
theorem exact_of_run {limit : Limit} {usage : Usage} {t : Host}
    (hrun : (run settings command limit).runOn h = (.ok usage, t)) : usage.Exact := by
  rw [run] at hrun
  split at hrun
  · cases hrun
  obtain ⟨leaf, u, -, hrun⟩ := Action.runOn_bind_eq_ok.1 hrun
  obtain ⟨⟨⟨collected, status⟩, last⟩, v, hended, hrun⟩ := Action.runOn_bind_eq_ok.1 hrun
  dsimp only at hrun
  split at hrun
  · obtain ⟨_, _, -, hreturn⟩ := Action.runOn_bind_eq_ok.1 hrun
    cases hreturn
    -- the run in the leaf has made the record, and the removal of the leaf keeps it
    rw [Action.runOn_withSecond, Prod.mk.injEq] at hended
    obtain ⟨hmapped, -⟩ := hended
    cases hboth : ((runIn settings command).thenAlways Leaf.destroy).runOn (u, leaf) with
    | mk outcome s =>
      rw [hboth] at hmapped
      cases outcome with
      | error _ => cases hmapped
      | ok result =>
        cases hmapped
        obtain ⟨_, hbody⟩ := Action.thenAlways_eq_ok hboth
        exact exact_of_runIn hbody
  · cases hrun

end MemoryLimit
