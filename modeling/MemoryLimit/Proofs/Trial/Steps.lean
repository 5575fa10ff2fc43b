import MemoryLimit.Proofs.Group.Steps
import MemoryLimit.Proofs.Trial.Record
import MemoryLimit.Trial.Run

/-!
# What the steps of a run keep

The steps of a run that lie between making its leaf and removing it: the output files, the process,
waiting for it and killing it, and the record. They keep what the few changes of the tree among them
keep, which are the directories and files for the output, the files that the process leaves in the
leaf, and the request to kill everything in the leaf.

## Main definitions

* `AllowsOutput` — a property that is kept when the files for the output are made.

## Main statements

* `keeps_runIn` — what a run in a leaf keeps.
-/
namespace MemoryLimit

open MemoryLimit.Action (Keeps)
open MemoryLimit.Host (Unobserving Unrecording Allows AllowsWriting)

variable {P : Host → Prop}

namespace Host

theorem keeps_noteChild (hP : Unrecording P) (event : ChildEvent) : Keeps P (noteChild event) := by
  refine (keeps_note hP _).bind fun _ => .modify fun h hh => ?_
  split
  · exact hP.launched h _ hh
  · exact hh

theorem keeps_childEvents : Keeps P childEvents :=
  Keeps.get.bind fun _ => .pure _

theorem keeps_placeFile {p : Path} (hwrite : AllowsWriting P p) (bytes : ByteArray) :
    Keeps P (placeFile p bytes) :=
  keeps_change (hwrite bytes)

theorem keeps_placeFiles {directory : Path} {files : List (String × ByteArray)}
    (hwrite : ∀ file ∈ files, AllowsWriting P (directory.child file.1)) :
    Keeps P (placeFiles directory files) := by
  induction files with
  | nil => exact .pure _
  | cons file rest ih =>
    exact (keeps_placeFile (hwrite file (by simp)) file.2).bind fun _ =>
      ih fun other hother => hwrite other (List.mem_cons_of_mem _ hother)

theorem keeps_placeOutput {file : Option Path} (hfile : ∀ p ∈ file, AllowsWriting P p)
    (bytes : ByteArray) : Keeps P (placeOutput file bytes) := by
  cases file with
  | none => exact .pure _
  | some p => exact keeps_placeFile (hfile p rfl) bytes

/-- The property still holds after the files of the process in a group were written. -/
def AllowsGroupFiles (P : Host → Prop) (group : Path) : Prop :=
  ∀ h, P h → ∀ file ∈ h.child.groupFiles, AllowsWriting P (group.child file.1)

theorem keeps_start {group : Path} {output errors : Option Path} (hP : Unrecording P)
    (hgroup : AllowsGroupFiles P group)
    (houtput : ∀ p ∈ output, AllowsWriting P p) (herrors : ∀ p ∈ errors, AllowsWriting P p)
    (launch : Launch) : Keeps P (start launch group output errors) := by
  have hnew : ∀ h, P h → P { h with launches := h.launches ++ [launch] } :=
    fun h => hP.launched h _
  refine (Keeps.modify hnew).bind fun _ => Keeps.get_bind fun h hh => ?_
  dsimp only
  split
  · exact .throw _
  · exact (keeps_placeFiles (hgroup h hh)).bind fun _ => (keeps_placeOutput houtput _).bind fun _ =>
      (keeps_placeOutput herrors _).bind fun _ => keeps_note hP _

theorem keeps_limitOf? (group : Path) : Keeps P (limitOf? group) := by
  refine Keeps.get.bind fun h => ?_
  split
  · split
    · exact .pure _
    · exact .pure _
  · exact .pure _

theorem keeps_ownExitCode (group : Path) : Keeps P (ownExitCode group) := by
  refine Keeps.get.bind fun h => ?_
  dsimp only
  split
  · exact .pure _
  · refine (keeps_limitOf? group).bind fun limit => ?_
    split
    · split
      · exact .pure _
      · exact .pure _
    · exact .pure _

theorem keeps_wait (hP : Unrecording P) (group : Path) (timeout : Option Binary64) :
    Keeps P (wait group timeout) := by
  refine keeps_childEvents.bind fun before => (keeps_noteChild hP _).bind fun _ =>
    Keeps.get.bind fun h => ?_
  dsimp only
  split
  · exact .throw _
  · split
    · exact .pure _
    · split
      · exact .pure _
      · exact (keeps_ownExitCode group).bind fun _ => .pure _

theorem keeps_killGroup (hP : Unrecording P) : Keeps P killGroup := by
  refine (keeps_noteChild hP _).bind fun _ => Keeps.get.bind fun h => ?_
  split
  · exact .throw _
  · exact .pure _

end Host

/-! ## Waiting and killing -/

variable {leaf : Leaf}

theorem keeps_killLeaf (hP : Unobserving P)
    (hkill : AllowsWriting P (leaf.path.child ControlFile.kill)) :
    Keeps (Leaf.Held P leaf) killLeaf := by
  refine Leaf.keeps_self_bind ((Leaf.keeps_kill hP hkill).tryCatch fun failure => ?_)
  split
  · exact Leaf.keeps_onHost (Host.keeps_report hP _)
  · exact .throw _

theorem keeps_killGroup (hP : Unrecording P) : Keeps (Leaf.Held P leaf) killGroup := by
  refine (Leaf.keeps_onHost (Host.keeps_killGroup hP)).onFault fun fault => ?_
  split
  · exact .pure _
  · exact .throw _

theorem keeps_killAll (hP : Unrecording P)
    (hkill : AllowsWriting P (leaf.path.child ControlFile.kill)) :
    Keeps (Leaf.Held P leaf) killAll :=
  Leaf.keeps_self_bind <| (keeps_killLeaf hP.toUnobserving hkill).bind fun _ =>
    (keeps_killGroup hP).bind fun _ => (Leaf.keeps_onHost (Host.keeps_wait hP _ _)).bind fun _ => .pure _

theorem keeps_await (hP : Unrecording P)
    (hkill : AllowsWriting P (leaf.path.child ControlFile.kill)) (timeout : Option Binary64) :
    Keeps (Leaf.Held P leaf) (await timeout) := by
  have hall := keeps_killAll hP hkill
  refine Leaf.keeps_self_bind ?_
  refine ((Leaf.keeps_onHost (Host.keeps_wait hP _ _)).tryCatch fun failure =>
    hall.bind fun _ => .throw _).bind fun outcome => ?_
  split
  · exact .pure _
  · exact (Leaf.keeps_onHost (Host.keeps_report hP.toUnobserving _)).bind fun _ =>
      hall.bind fun _ => .pure _

/-! ## The output and the process -/

/-- The property still holds after the files for the output in a directory were made. -/
structure AllowsOutput (P : Host → Prop) (directory : Path) : Prop where
  make : ∀ beginning : Path, beginning.IsStart directory → Allows P beginning Tree.makeDirectory
  output : AllowsWriting P (directory.child "stdout.log")
  errors : AllowsWriting P (directory.child "stderr.log")

theorem keeps_openOutput {directory : Path} (hP : Unobserving P) (houtput : AllowsOutput P directory) :
    Keeps P (openOutput directory) :=
  (Host.keeps_makeDirectories hP houtput.make).bind fun _ =>
    (Host.keeps_placeFile houtput.output _).bind fun _ =>
      (Host.keeps_placeFile houtput.errors _).bind fun _ => .pure _

theorem openOutput_eq_ok {directory : Path} {h t : Host} {files : Path × Path}
    (hrun : (openOutput directory).runOn h = (.ok files, t)) :
    files = (directory.child "stdout.log", directory.child "stderr.log") := by
  obtain ⟨_, _, -, hplace⟩ := Action.runOn_bind_eq_ok.1 hrun
  obtain ⟨_, _, -, hplace'⟩ := Action.runOn_bind_eq_ok.1 hplace
  obtain ⟨_, _, -, hreturn⟩ := Action.runOn_bind_eq_ok.1 hplace'
  cases hreturn
  rfl

/-- The files for the output of a command may be written. -/
def AllowsFiles (P : Host → Prop) (files : Option (Path × Path)) : Prop :=
  ∀ pair ∈ files, AllowsWriting P pair.1 ∧ AllowsWriting P pair.2

theorem keeps_mapM_openOutput {directory : Option Path} (hP : Unobserving P)
    (houtput : ∀ d ∈ directory, AllowsOutput P d) : Keeps P (directory.mapM openOutput) := by
  cases directory with
  | none => exact .pure _
  | some d =>
    refine Keeps.bind (keeps_openOutput hP (houtput d rfl)) fun _ => .pure _

theorem allowsFiles_of_openOutput {directory : Option Path}
    (houtput : ∀ d ∈ directory, AllowsOutput P d) {h t : Host} {files : Option (Path × Path)}
    (hrun : (directory.mapM openOutput).runOn h = (.ok files, t)) : AllowsFiles P files := by
  cases directory with
  | none =>
    cases hrun
    rintro pair ⟨⟩
  | some d =>
    obtain ⟨pair, _, hopen, hreturn⟩ := Action.runOn_bind_eq_ok.1 hrun
    cases hreturn
    rintro _ ⟨⟩
    rw [openOutput_eq_ok hopen]
    exact ⟨(houtput d rfl).output, (houtput d rfl).errors⟩

theorem keeps_launchHelper {files : Option (Path × Path)} (hP : Unrecording P)
    (hgroup : Host.AllowsGroupFiles P leaf.path) (hfiles : AllowsFiles P files)
    (launch : Launch) : Keeps P (launchHelper launch leaf files) := by
  refine (Host.keeps_start hP hgroup ?_ ?_ launch).onFault fun _ => .throw _
  · intro p hp
    obtain ⟨pair, hpair, rfl⟩ := Option.map_eq_some_iff.1 hp
    exact (hfiles pair hpair).1
  · intro p hp
    obtain ⟨pair, hpair, rfl⟩ := Option.map_eq_some_iff.1 hp
    exact (hfiles pair hpair).2

theorem keeps_collect (hP : Unobserving P) (start : Binary64) (exitCode : Int) :
    Keeps P (collect leaf start exitCode) :=
  (keeps_cpuOrZero hP _).bind fun _ => (Host.keeps_tick hP).bind fun _ =>
    (Keeps.liftM _).bind fun _ => (Keeps.liftM _).bind fun _ =>
      (Host.keeps_report hP _).bind fun _ => .pure _

/-- The start of a command keeps what making its files and those of its group keeps. -/
theorem keeps_launch {command : Command} (hP : Unrecording P)
    (hgroup : Host.AllowsGroupFiles P leaf.path)
    (houtput : ∀ directory ∈ command.directory, AllowsOutput P directory) (settings : Settings) :
    Keeps P (launch settings command leaf) := by
  refine Keeps.get.bind fun host => ?_
  dsimp only
  refine Keeps.bind_of_gives (AllowsFiles P) (keeps_mapM_openOutput hP.toUnobserving houtput)
    (fun _ _ _ _ => allowsFiles_of_openOutput houtput) fun files hfiles => ?_
  exact (Host.keeps_report hP.toUnobserving _).bind fun _ =>
    (Host.keeps_tick hP.toUnobserving).bind fun _ =>
      (keeps_launchHelper hP hgroup hfiles _).bind fun _ => .pure _

/-- **What a run in a leaf keeps.** -/
theorem keeps_runIn {command : Command} (hP : Unrecording P)
    (hgroup : Host.AllowsGroupFiles P leaf.path)
    (hkill : AllowsWriting P (leaf.path.child ControlFile.kill))
    (houtput : ∀ directory ∈ command.directory, AllowsOutput P directory) (settings : Settings) :
    Keeps (Leaf.Held P leaf) (runIn settings command) :=
  Leaf.keeps_self_bind <|
    (Leaf.keeps_onHost (keeps_launch hP hgroup houtput settings)).bind fun _ =>
      (keeps_await hP hkill _).bind fun _ => Keeps.get.bind fun _ =>
        (Leaf.keeps_onHost (keeps_collect hP.toUnobserving _ _)).bind fun _ => .pure _

end MemoryLimit
