import MemoryLimit.Attach
import MemoryLimit.Proofs.Host.Nodes

/-!
# Runs of the helper

The helper writes to its status pipe when it cannot enter its group or cannot become its command, and
then only: the bytes it writes are the stage and the fault. A helper that cannot enter its group
executes nothing.

## Main definitions

* `Host.pipeBytes` — what was written to the open end of a pipe.
* `AttachRequest.enter` — the helper enters its group.

## Main statements

* `runOn_attach_refused` — a helper that cannot enter its group reports that and executes nothing.
* `runOn_attach_entered` — a helper that entered its group executes its command, or reports why not.
-/
namespace MemoryLimit

variable {h t u : Host} {request : AttachRequest} {number : Int} {fault : OsFault}

/-! ## The status pipe -/

/-- A descriptor is the open end of a pipe that is written to. -/
def Descriptor.writes (number : Int) (d : Descriptor) : Bool :=
  d.number == number && d.writable

/-- What was written to the open end of a pipe, if there is one of this number. -/
def Host.pipeBytes (h : Host) (number : Int) : Option ByteArray :=
  (h.descriptors.find? (Descriptor.writes number)).map Descriptor.written

/-- A change of descriptors that keeps their ends changes what was written to the first of them. -/
theorem find?_map_descriptors {f : Descriptor → Descriptor}
    (hf : ∀ d, (f d).writes number = d.writes number) (descriptors : List Descriptor) :
    (descriptors.map f).find? (Descriptor.writes number) =
      (descriptors.find? (Descriptor.writes number)).map f := by
  rw [List.find?_map]
  congr 2
  funext d
  exact hf d

/-- A pipe that is not inherited has the same bytes. -/
theorem keepStatus_eq_ok (hrun : request.keepStatus.runOn h = (.ok (), t)) :
    (∀ number, t.pipeBytes number = h.pipeBytes number) ∧
      ∃ descriptors, t = { h with descriptors := descriptors } := by
  rw [AttachRequest.keepStatus] at hrun
  split at hrun
  · rename_i closed _
    rw [closeOnExecution] at hrun
    split at hrun
    · cases hrun
    rw [Action.runOn_bind_ok (Action.runOn_get h)] at hrun
    split at hrun
    · cases hrun
      refine ⟨fun number => ?_, _, rfl⟩
      rw [Host.pipeBytes, Host.pipeBytes, find?_map_descriptors, Option.map_map]
      · congr 1
        funext d
        rw [Function.comp_apply]
        split <;> rfl
      · intro d
        split <;> rfl
    · cases hrun
  · cases hrun
    exact ⟨fun _ => rfl, _, rfl⟩

/-- What is written to a pipe is added to its bytes. -/
theorem pipeBytes_writeStatus {bytes : ByteArray} (text : String)
    (hbytes : h.pipeBytes number = some bytes) :
    ((writeStatus number text).runOn h).2.pipeBytes number = some (bytes ++ text.toUTF8) := by
  rw [Host.pipeBytes, Option.map_eq_some_iff] at hbytes
  obtain ⟨d, hd, rfl⟩ := hbytes
  have hopen := List.find?_some hd
  rw [writeStatus, Action.runOn_modify, Host.pipeBytes]
  dsimp only
  rw [find?_map_descriptors, hd]
  · simp only [Option.map_some]
    rw [Descriptor.writes] at hopen
    rw [if_pos (by simpa using hopen)]
  · intro d
    split <;> rfl

/-! ## Entering and executing -/

/-- Enters the group of a request. -/
def AttachRequest.enter (request : AttachRequest) : Action Host Unit := do
  Host.writeText ((request.groupOn (← get)).child ControlFile.processes) "0"

/-- The host after a fault was reported on the status pipe of a request. -/
theorem runOn_failAttach (request : AttachRequest) (stage aim : String) (code : Nat)
    (fault : OsFault) (h : Host) :
    ∃ t, (failAttach request stage aim code fault).runOn h = (.ok (.exited code), t) ∧
      t.executions = h.executions ∧ t.tree = h.tree ∧
      ∀ number bytes, request.status = some number → h.pipeBytes number = some bytes →
        t.pipeBytes number = some (bytes ++ (statusText stage fault).toUTF8) := by
  let line := "cgexec: cannot " ++ aim ++ ": " ++ fault.text
  let complained : Host := { h with errorLines := h.errorLines ++ [line] }
  have hcomplain : (Host.complain line).runOn h = (.ok (), complained) := rfl
  rw [failAttach, Action.runOn_bind_ok hcomplain, AttachRequest.reportStatus]
  cases hstatus : request.status with
  | none => exact ⟨complained, rfl, rfl, rfl, by simp⟩
  | some pipe =>
    dsimp only
    refine ⟨((writeStatus pipe (statusText stage fault)).runOn complained).2, rfl, rfl, rfl, ?_⟩
    rintro number bytes hnumber hbytes
    cases hnumber
    exact pipeBytes_writeStatus _ hbytes

/-- What the helper has beside the files. -/
def Host.SameHelper (h t : Host) : Prop :=
  t.executions = h.executions ∧ t.executionFault = h.executionFault ∧
    ∀ number, t.pipeBytes number = h.pipeBytes number

theorem Host.treeless_sameHelper (h : Host) : Treeless h.SameHelper := by
  constructor
  · constructor <;> intros <;> assumption
  · intros
    assumption

theorem keeps_enter {P : Host → Prop} (hP : Host.Treeless P) :
    Action.Keeps P request.enter :=
  Action.Keeps.get.bind fun _ => Host.keeps_writeText hP.toUnobserving (hP.allowsWriting _) _

/-- Until it has entered its group, the helper changes nothing but the files and what is inherited. -/
theorem sameHelper_of_enter {outcome : Except Failure Unit}
    (hkeep : request.keepStatus.runOn h = (.ok (), t))
    (henter : request.enter.runOn t = (outcome, u)) : h.SameHelper u := by
  obtain ⟨hpipes, descriptors, rfl⟩ := keepStatus_eq_ok hkeep
  exact (keeps_enter (Host.treeless_sameHelper h)).after henter ⟨rfl, rfl, hpipes⟩

/-- **A helper that cannot enter its group** reports that and executes nothing. -/
theorem runOn_attach_refused (hkeep : request.keepStatus.runOn h = (.ok (), t))
    (henter : request.enter.runOn t = (.error (.os fault), u)) :
    ∃ v, (attach request).runOn h = (.ok (.exited attachFailedCode), v) ∧
      v.executions = h.executions ∧
      ∀ number bytes, request.status = some number → h.pipeBytes number = some bytes →
        v.pipeBytes number = some (bytes ++ (statusText "attach" fault).toUTF8) := by
  obtain ⟨hexecutions, -, hpipes⟩ := sameHelper_of_enter hkeep henter
  rw [AttachRequest.enter, Action.runOn_bind_ok (Action.runOn_get t)] at henter
  obtain ⟨v, hfail, hsame, -, hreported⟩ := runOn_failAttach request "attach"
    ("attach to " ++ (request.groupOn t).text) attachFailedCode fault u
  refine ⟨v, ?_, hsame.trans hexecutions, fun number bytes hnumber hbytes => ?_⟩
  · rw [attach, Action.runOn_bind_ok hkeep, Action.runOn_bind_ok (Action.runOn_get t)]
    dsimp only
    rw [Action.runOn_bind, Action.runOn_onFault, Action.runOn_bind_error henter]
    exact hfail
  · rw [← hpipes] at hbytes
    exact hreported number bytes hnumber hbytes

/-- However a helper fails to enter its group, it executes nothing. -/
theorem not_executed_of_enter {failure : Failure} (hkeep : request.keepStatus.runOn h = (.ok (), t))
    (henter : request.enter.runOn t = (.error failure, u)) :
    ((attach request).runOn h).1 ≠ .ok .executed ∧
      ((attach request).runOn h).2.executions = h.executions := by
  by_cases hfault : ∃ fault, failure = .os fault
  · obtain ⟨fault, rfl⟩ := hfault
    obtain ⟨v, hrun, hexecutions, -⟩ := runOn_attach_refused hkeep henter
    rw [hrun]
    exact ⟨by rintro ⟨⟩, hexecutions⟩
  · obtain ⟨hexecutions, -, -⟩ := sameHelper_of_enter hkeep henter
    have hrun : (attach request).runOn h = (.error failure, u) := by
      rw [AttachRequest.enter, Action.runOn_bind_ok (Action.runOn_get t)] at henter
      rw [attach, Action.runOn_bind_ok hkeep, Action.runOn_bind_ok (Action.runOn_get t)]
      apply Action.runOn_bind_error
      rw [Action.runOn_onFault, Action.runOn_bind_error henter]
      split
      · rename_i fault _ hend
        cases hend
        exact absurd ⟨fault, rfl⟩ hfault
      · rfl
    rw [hrun]
    exact ⟨by rintro ⟨⟩, hexecutions⟩

/-- **A helper that entered its group** makes the call that executes its command. If the system refuses
that, the helper reports it; if the words cannot be handed over, the helper fails. -/
theorem runOn_attach_entered (hkeep : request.keepStatus.runOn h = (.ok (), t))
    (henter : request.enter.runOn t = (.ok (), u)) :
    ∃ v, v.executions = h.executions ++ [request.command] ∧ v.tree = u.tree ∧
      match h.executionFault with
      | none => (attach request).runOn h =
            ((unpassable? request.command).elim (.ok .executed) fun cause => .error (.invalid cause),
              v) ∧
          ∀ number, v.pipeBytes number = h.pipeBytes number
      | some fault => (attach request).runOn h = (.ok (.exited executionFailedCode), v) ∧
          ∀ number bytes, request.status = some number → h.pipeBytes number = some bytes →
            v.pipeBytes number = some (bytes ++ (statusText "exec" fault).toUTF8) := by
  obtain ⟨hexecutions, hfault, hpipes⟩ := sameHelper_of_enter hkeep henter
  rw [AttachRequest.enter, Action.runOn_bind_ok (Action.runOn_get t)] at henter
  obtain ⟨tried, htried⟩ : ∃ v : Host, v = { u with executions := u.executions ++ [request.command] } :=
    ⟨_, rfl⟩
  have hcommand : tried.executions = h.executions ++ [request.command] := by
    rw [htried, ← hexecutions]
  have htree : tried.tree = u.tree := by
    rw [htried]
  have hsame : ∀ number, tried.pipeBytes number = h.pipeBytes number := by
    rw [htried]
    exact hpipes
  have hexecute : (execute request.command).runOn u =
      match h.executionFault with
      | none =>
        ((unpassable? request.command).elim (.ok ()) fun cause => .error (.invalid cause), tried)
      | some fault => (.error (.os fault), tried) := by
    rw [execute, Action.runOn_bind_ok (Action.runOn_modify _ u), ← htried,
      Action.runOn_bind_ok (Action.runOn_get tried),
      show tried.executionFault = h.executionFault by rw [htried, hfault]]
    cases h.executionFault <;> cases unpassable? request.command <;> rfl
  have hattach : (attach request).runOn h =
      (Action.onFault
        (do
          execute request.command
          return .executed)
        (failAttach request "exec" ("exec " ++ request.command.headD "") executionFailedCode)).runOn
          u := by
    rw [attach, Action.runOn_bind_ok hkeep, Action.runOn_bind_ok (Action.runOn_get t)]
    dsimp only
    rw [Action.runOn_bind, Action.runOn_onFault, Action.runOn_bind_ok henter]
    rfl
  rw [hattach, Action.runOn_onFault, Action.runOn_bind, hexecute]
  cases h.executionFault with
  | none =>
    refine ⟨tried, hcommand, htree, ?_, hsame⟩
    cases unpassable? request.command <;> rfl
  | some fault =>
    obtain ⟨v, hfail, hlast, hsameTree, hreported⟩ := runOn_failAttach request "exec"
      ("exec " ++ request.command.headD "") executionFailedCode fault tried
    refine ⟨v, hlast.trans hcommand, hsameTree.trans htree, hfail, fun number bytes hnumber hbytes => ?_⟩
    rw [← hsame] at hbytes
    exact hreported number bytes hnumber hbytes

end MemoryLimit
