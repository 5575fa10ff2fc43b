import MemoryLimit.Proofs.Host.Nulls
import MemoryLimit.Proofs.Text.Utf8
import MemoryLimit.Proofs.Trial.Removal

/-!
# The course of a run

Once its command was started, a run waits for it first of all. Where that wait returns, nothing is
killed; where it expires or is interrupted, everything in the leaf is killed and waited for. Only then
the processor time is read, unless the wait was interrupted, and the leaf is removed last. Neither a
refusal of the kernel nor a process group that is gone changes that order.

## Main definitions

* `Started` — a run has started its command.
* `waitDeeds` — what is done until the command is gone.
* `Reaped` — how a run goes on whose command was started.

## Main statements

* `runOn_await` — what waiting for a command does, and what it answers.
* `run_reaps_child` — every run whose command was started reaps it, and no other run touches a process.
-/
namespace MemoryLimit

open MemoryLimit.Action (Keeps)

variable {h t u v w : Host} {settings : Settings} {command : Command} {limit : Limit} {leaf : Leaf}
  {start : Binary64}

/-! ## Waiting -/

/-- The exit code that the end of a wait stands for. -/
def WaitOutcome.code : WaitOutcome → Int
  | .exited code => code
  | .expired => timeoutCode

/-- What is done until a command is gone, by how the first wait for it ended. -/
def waitDeeds (leaf : Leaf) (timeout : Option Binary64) (offered : Bool) :
    Except Failure WaitOutcome → List Deed
  | .ok (.exited _) => [.child (.waited timeout)]
  | _ => .child (.waited timeout) :: killDeeds leaf offered

/-- **Waiting for a command** goes on to the last wait, and answers what the first one did. -/
theorem runOn_await (hunderway : Underway leaf w) (timeout : Option Binary64) :
    ∃ v, (await timeout).runOn (w, leaf) =
        ((w.nextWait leaf.path timeout).map WaitOutcome.code, (v, leaf)) ∧
      v.deeds = w.deeds ++
        waitDeeds leaf timeout (w.offersKill leaf) (w.nextWait leaf.path timeout) ∧
      v.child = w.child ∧
      ((∀ code, w.nextWait leaf.path timeout ≠ .ok (.exited code)) →
        w.Undisturbed .write (leaf.path.child ControlFile.kill) →
        (∃ bytes, w.Has (leaf.path.child ControlFile.kill) (.file bytes)) →
        v.Has (leaf.path.child ControlFile.kill) (.file "1".toUTF8)) := by
  have hwait := Host.runOn_nextWait leaf.path timeout w
  have hsame := Host.sameGround_noted (.waited timeout) w
  rw [await, Action.runOn_bind_ok (Leaf.runOn_self w leaf), Action.runOn_bind,
    Action.runOn_tryCatch, Leaf.runOn_onHost, hwait]
  cases hended : w.nextWait leaf.path timeout with
  | error failure =>
    obtain ⟨v, hkill, hdeeds, hchild, hwritten⟩ := runOn_killAll (hunderway.noted (.waited timeout))
    refine ⟨v, ?_, ?_, hchild, ?_⟩
    · dsimp only
      rw [Action.runOn_bind_ok hkill]
      rfl
    · rw [hdeeds, Host.noted_deeds, List.append_assoc]
      rfl
    · rintro - hundisturbed ⟨bytes, hhas⟩
      exact hwritten hundisturbed ⟨bytes, hhas.of_sameGround hsame⟩
  | ok ended =>
    cases ended with
    | exited code =>
      exact ⟨w.noted (.waited timeout), rfl, rfl, rfl, fun hno => absurd rfl (hno code)⟩
    | expired =>
      let noticed : Host := { w.noted (.waited timeout) with
        journal := w.journal ++ [.trialTimeout Host.childId timeout] }
      have hnoticed : Underway leaf noticed :=
        ⟨hunderway.alive, hunderway.hasNull, hunderway.reachable,
          (hunderway.noted (.waited timeout)).launched⟩
      obtain ⟨v, hkill, hdeeds, hchild, hwritten⟩ := runOn_killAll hnoticed
      have hreport : (Leaf.onHost (Host.report (.trialTimeout Host.childId timeout))).runOn
          (w.noted (.waited timeout), leaf) = (.ok (), (noticed, leaf)) := rfl
      refine ⟨v, ?_, ?_, hchild, ?_⟩
      · dsimp only
        rw [Action.runOn_bind_ok hreport, Action.runOn_bind_ok hkill]
        rfl
      · rw [hdeeds, show noticed.deeds = w.deeds ++ [.child (.waited timeout)] from rfl,
          List.append_assoc]
        rfl
      · rintro - hundisturbed ⟨bytes, hhas⟩
        exact hwritten hundisturbed ⟨bytes, hhas.of_sameGround ⟨rfl, rfl, rfl, hsame.disturbances⟩⟩

/-! ## Starting -/

/-- A run has started its command: a leaf was made, and the helper was started in it. -/
structure Started (settings : Settings) (command : Command) (limit : Limit) (h : Host) (leaf : Leaf)
    (start : Binary64) (w : Host) : Prop where
  words : command.words ≠ []
  made : ∃ t, (Leaf.create settings limit).runOn h = (.ok leaf, t) ∧
    (launch settings command leaf).runOn t = (.ok start, w)

/-- The leaf, the time of the start and the host with which a run has started its command, if it
does. -/
def startOf? (settings : Settings) (command : Command) (limit : Limit) (h : Host) :
    Option (Leaf × Binary64 × Host) :=
  if command.words = [] then none
  else
    match (Leaf.create settings limit).runOn h with
    | (.ok leaf, t) =>
      match (launch settings command leaf).runOn t with
      | (.ok start, w) => some (leaf, start, w)
      | (.error _, _) => none
    | (.error _, _) => none

theorem started_of_startOf? (hstart : startOf? settings command limit h = some (leaf, start, w)) :
    Started settings command limit h leaf start w := by
  rw [startOf?] at hstart
  split at hstart
  · cases hstart
  rename_i hwords
  split at hstart
  · rename_i leaf' t hcreate
    split at hstart
    · rename_i start' w' hlaunch
      cases hstart
      exact ⟨hwords, t, hcreate, hlaunch⟩
    · cases hstart
  · cases hstart

/-- **The start of a command ends with the start of its process**; a start that fails only makes
calls. -/
theorem launch_cases {outcome : Except Failure Binary64}
    (hrun : (launch settings command leaf).runOn h = (outcome, t)) :
    (∃ failure, outcome = .error failure ∧ h.CalledOnly t) ∨
      ∃ start u, outcome = .ok start ∧ h.CalledOnly u ∧ t.deeds = u.deeds ++ [.started] ∧
        t.child = u.child ∧ t.events = [] ∧ t.launches ≠ [] := by
  have hP := Host.treeless_calledOnly h
  have hfiles : Keeps h.CalledOnly (command.directory.mapM openOutput) := by
    refine keeps_mapM_openOutput hP.toUnobserving fun directory _ => ?_
    exact ⟨fun _ _ => hP.allows _ _, hP.allowsWriting _, hP.allowsWriting _⟩
  rw [launch, Action.runOn_bind_ok (Action.runOn_get h)] at hrun
  dsimp only at hrun
  rcases Action.runOn_bind_cases hrun with ⟨failure, hopen, rfl⟩ | ⟨files, u₁, hopen, hrun⟩
  · exact .inl ⟨failure, rfl, hfiles.after hopen (.refl h)⟩
  have hu₁ := hfiles.after hopen (.refl h)
  rcases Action.runOn_bind_cases hrun with ⟨failure, hreport, rfl⟩ | ⟨_, u₂, hreport, hrun⟩
  · cases hreport
  have hu₂ := (Host.keeps_report hP.toUnobserving _).after hreport hu₁
  rcases Action.runOn_bind_cases hrun with ⟨failure, htick, rfl⟩ | ⟨now, u₃, htick, hrun⟩
  · cases htick
  have hu₃ := (Host.keeps_tick hP.toUnobserving).after htick hu₂
  rcases Action.runOn_bind_cases hrun with ⟨failure, hhelper, rfl⟩ | ⟨_, u₄, hhelper, hrun⟩
  · obtain ⟨cause, hstart⟩ := Action.onFault_throw_eq_error hhelper
    rcases Host.start_cases hstart with ⟨_, -, hdeeds, hchild⟩ | ⟨hok, -⟩
    · exact .inl ⟨failure, rfl, hu₃.trans ⟨⟨[], by simp [hdeeds]⟩, hchild⟩⟩
    · cases hok
  · rcases Host.start_cases (Action.onFault_throw_eq_ok hhelper) with
      ⟨_, hfail, -⟩ | ⟨-, hdeeds, hchild, hlaunches⟩
    · cases hfail
    · cases hrun
      refine .inr ⟨now, u₃, rfl, hu₃, hdeeds, hchild, ?_, ?_⟩
      · rw [Host.events, hlaunches]
        simp
      · rw [hlaunches]
        simp

/-- A leaf that was made has a limit of its swap space, and a process may be started in it. -/
theorem Leaf.has_of_create (hfaults : h.FaultsOnly)
    (hrun : (create settings limit).runOn h = (.ok leaf, t)) :
    leaf.destroyed = false ∧ leaf.path.names ≠ [] ∧
      t.Has (leaf.path.child ControlFile.swapMax) (.file "0".toUTF8) := by
  rcases create_cases hrun with ⟨_, hfail, -⟩ |
    ⟨n, parent, count, u, v, made, hok, -, hprepare, hmade, hfresh, x, hset, hsame⟩
  · cases hfail
  cases hok
  have hvfaults : v.FaultsOnly :=
    (hfaults.of_evolves (prepareParent_grows hprepare)).of_evolves hfresh.grows
  have halive : leaf.destroyed = false := by rw [hmade]
  obtain ⟨-, hswap⟩ := has_of_setLimits halive hvfaults hset
  exact ⟨halive, Tree.names_ne_nil_of_endsInName hfresh.endsInName, hswap.of_sameGround hsame⟩

/-- The start of a command leaves the directories as they are. -/
theorem grows_launch {outcome : Except Failure Binary64} (hnames : leaf.path.names ≠ [])
    (hrun : (launch settings command leaf).runOn h = (outcome, t)) :
    h.Grows (fun _ => True) (fun _ => True) t := by
  refine Host.grows_of_keeps ?_ hrun
  apply keeps_launch (Host.grounded_evolves _ h).unrecording
  · intro _ _ file _
    exact Host.allowsWriting (Path.leads_child hnames file.1) trivial
  · intro directory _
    refine ⟨fun _ _ => Host.allows_makeDirectory (fun _ => trivial) trivial, ?_, ?_⟩
    · exact Host.allowsWriting (Path.leads_child_of_isFileName ⟨by decide, by decide⟩) trivial
    · exact Host.allowsWriting (Path.leads_child_of_isFileName ⟨by decide, by decide⟩) trivial

theorem Started.underway (hfaults : h.FaultsOnly)
    (hstarted : Started settings command limit h leaf start w) : Underway leaf w := by
  obtain ⟨t, hcreate, hlaunch⟩ := hstarted.made
  obtain ⟨halive, hnames, hswap⟩ := Leaf.has_of_create hfaults hcreate
  have hgrown := grows_launch hnames hlaunch
  refine ⟨halive, ?_, ?_, ?_⟩
  · have hnull := Path.hasNull_of_child ControlFile.isFileName_swapMax hswap.hasNull
    exact Path.hasNull_child_eq_false ControlFile.isFileName_kill (by decide) hnull
  · -- the file for the swap space has the longer name, and was written
    obtain ⟨place, hplace, -⟩ := Host.find_eq_ok_iff.1 hswap.find
    have hlater := Tree.locate_mono hgrown.tree.directories hplace
    rw [← hgrown.directory_eq] at hlater
    exact Tree.exists_locate_child ControlFile.isFileName_swapMax ControlFile.isFileName_kill
      (by decide) hlater
  · rcases launch_cases hlaunch with ⟨_, hfail, -⟩ | ⟨_, _, -, -, -, -, -, hlaunched⟩
    · cases hfail
    · exact hlaunched

/-- Until its command was started, a run makes calls only, and the start is what it does last. -/
theorem Started.deeds (hstarted : Started settings command limit h leaf start w) :
    (∃ calls : List (Call × Path),
      w.deeds = h.deeds ++ (calls.map fun c => .called c.1 c.2) ++ [.started]) ∧
      w.child = h.child := by
  obtain ⟨made, hcreate, hlaunch⟩ := hstarted.made
  have hP := Host.treeless_calledOnly h
  have hmade := (Leaf.keeps_create hP.toUnobserving (hP.allowsGroups settings) limit).after hcreate
    (.refl h)
  rcases launch_cases hlaunch with ⟨_, hfail, -⟩ | ⟨_, u, -, hcalls, hdeeds, hchild, -, -⟩
  · cases hfail
  have hbefore := hmade.trans hcalls
  obtain ⟨calls, hcalled⟩ := hbefore.deeds
  exact ⟨⟨calls, by rw [hdeeds, hcalled]⟩, hchild.trans hbefore.child_eq⟩

/-! ## The whole run -/

/-- How the first wait for a command ends that was started. -/
def firstWait (settings : Settings) (command : Command) (leaf : Leaf) (w : Host) :
    Except Failure WaitOutcome :=
  w.nextWait leaf.path (command.timeout.or settings.timeout)

/-- The host after the wait for a command that was started on another one. -/
def afterWait (settings : Settings) (command : Command) (leaf : Leaf) (w : Host) : Host :=
  ((await (command.timeout.or settings.timeout)).runOn (w, leaf)).2.1

/-- How a run goes on and ends whose command was started on a host: the command is gone on a second
host, and the leaf is removed on a third one. -/
structure Reaped (settings : Settings) (command : Command) (leaf : Leaf) (start : Binary64)
    (w v u : Host) (outcome : Except Failure Usage) : Prop where
  /-- The run waits, and kills everything in the leaf unless that wait returns. -/
  waited : v.deeds = w.deeds ++ waitDeeds leaf (command.timeout.or settings.timeout)
    (w.offersKill leaf) (firstWait settings command leaf w)
  /-- The request to the kernel, unless it is refused, is the text of one. -/
  killed : (∀ code, firstWait settings command leaf w ≠ .ok (.exited code)) →
    w.Undisturbed .write (leaf.path.child ControlFile.kill) →
    (∃ bytes, w.Has (leaf.path.child ControlFile.kill) (.file bytes)) →
    v.Has (leaf.path.child ControlFile.kill) (.file "1".toUTF8)
  /-- The group is read and removed after that. -/
  removed : ∃ removal, IsRemoval leaf removal ∧
    u.deeds = v.deeds ++ readDeeds leaf (firstWait settings command leaf w) ++ removal
  /-- An interruption is what the run fails with. -/
  interrupted : ∀ failure, firstWait settings command leaf w = .error failure →
    failure = .interrupted ∧ outcome = .error failure
  /-- The record has the exit code of the wait; it is the answer if the helper reported nothing. -/
  collected : ∀ ended, firstWait settings command leaf w = .ok ended →
    outcome = ((collect leaf start ended.code).runOn v).1.bind fun usage =>
      if statusOf settings w = "" then .ok usage
      else .error (.spawn (statusFault leaf command (statusOf settings w)))

/-- What is done in a leaf, before it is removed. -/
theorem runOn_runIn {made : Host}
    (hlaunch : (launch settings command leaf).runOn made = (.ok start, w))
    (hawait : (await (command.timeout.or settings.timeout)).runOn (w, leaf) =
      ((firstWait settings command leaf w).map WaitOutcome.code, (v, leaf))) :
    (runIn settings command).runOn (made, leaf) =
      match firstWait settings command leaf w with
      | .error failure => (.error failure, (v, leaf))
      | .ok ended =>
        (((collect leaf start ended.code).runOn v).1.map (·, statusOf settings v),
          (((collect leaf start ended.code).runOn v).2, leaf)) := by
  have hlaunch : (Leaf.onHost (launch settings command leaf)).runOn (made, leaf) =
      (.ok start, (w, leaf)) := Leaf.onHost_eq_iff.2 ⟨hlaunch, rfl⟩
  rw [runIn, Action.runOn_bind_ok (Leaf.runOn_self made leaf), Action.runOn_bind_ok hlaunch]
  cases hended : firstWait settings command leaf w with
  | error failure =>
    rw [hended] at hawait
    exact Action.runOn_bind_error hawait
  | ok ended =>
    rw [hended] at hawait
    rw [Action.runOn_bind_ok hawait, Action.runOn_bind_ok (Action.runOn_get _), Action.runOn_bind,
      Leaf.runOn_onHost]
    dsimp only
    cases (collect leaf start ended.code).runOn v with
    | mk outcome u => cases outcome <;> rfl

/-- **Whatever was done in a leaf, it is removed after that**, and the answer depends on what was done
alone. -/
theorem runOn_run {made : Host} {body : Except Failure (Usage × String)} (hwords : command.words ≠ [])
    (halive : leaf.destroyed = false) (hnull : leaf.path.hasNull = false)
    (hcreate : (Leaf.create settings limit).runOn h = (.ok leaf, made))
    (hbody : (runIn settings command).runOn (made, leaf) = (body, (v, leaf))) :
    ((run settings command limit).runOn h).1 = body.bind (fun result =>
        if result.2 = "" then .ok result.1
        else .error (.spawn (statusFault leaf command result.2))) ∧
      ∃ removal, IsRemoval leaf removal ∧
        ((run settings command limit).runOn h).2.deeds = v.deeds ++ removal ∧
        v.CalledOnly ((run settings command limit).runOn h).2 := by
  obtain ⟨u, removal, hdestroy, hdeeds, hremoval, hcalled⟩ := runOn_destroy_removal halive hnull v
  have hwithin : (Action.withSecond leaf
      (Action.thenAlways (runIn settings command) Leaf.destroy)).runOn made =
      (body.map (·, { leaf with destroyed := true }), u) := by
    rw [Action.runOn_withSecond, Action.runOn_thenAlways, hbody, hdestroy]
  rw [run, if_neg (by simpa using hwords), Action.runOn_bind_ok hcreate]
  cases body with
  | error failure =>
    rw [Action.runOn_bind_error hwithin]
    exact ⟨rfl, removal, hremoval, hdeeds, hcalled⟩
  | ok result =>
    obtain ⟨usage, status⟩ := result
    rw [Action.runOn_bind_ok hwithin]
    by_cases hstatus : status = ""
    · simp only [if_pos hstatus]
      refine ⟨?_, removal, hremoval, hdeeds, ?_⟩
      · simp [Except.bind, hstatus]
        rfl
      · exact ⟨hcalled.deeds, hcalled.child_eq⟩
    · simp only [if_neg hstatus]
      refine ⟨?_, removal, hremoval, hdeeds, hcalled⟩
      simp [Except.bind, hstatus]

/-- **A run whose command was started reaps it.** -/
theorem reaped_of_started (hfaults : h.FaultsOnly)
    (hstarted : Started settings command limit h leaf start w) :
    Reaped settings command leaf start w (afterWait settings command leaf w)
      ((run settings command limit).runOn h).2 ((run settings command limit).runOn h).1 := by
  have hunderway := hstarted.underway hfaults
  obtain ⟨made, hcreate, hlaunch⟩ := hstarted.made
  obtain ⟨v, hawait, hdeeds, hchild, hwritten⟩ :=
    runOn_await hunderway (command.timeout.or settings.timeout)
  have hbody := runOn_runIn hlaunch hawait
  have hnull : leaf.path.hasNull = false :=
    Path.hasNull_of_child ControlFile.isFileName_kill hunderway.hasNull
  have hafter : afterWait settings command leaf w = v := by rw [afterWait, hawait]
  rw [hafter]
  cases hended : firstWait settings command leaf w with
  | error failure =>
    rw [hended] at hbody
    obtain ⟨houtcome, removal, hremoval, hremoved, -⟩ :=
      runOn_run hstarted.words hunderway.alive hnull hcreate hbody
    refine ⟨hdeeds, hwritten, ⟨removal, hremoval, ?_⟩, ?_, ?_⟩
    · rw [hremoved, hended, readDeeds, List.append_nil]
    · intro other hother
      rw [hended] at hother
      cases hother
      exact ⟨(Host.eq_interrupted_of_nextWait hended).1, houtcome⟩
    · intro ended hok
      rw [hended] at hok
      cases hok
  | ok ended =>
    rw [hended] at hbody
    obtain ⟨houtcome, removal, hremoval, hremoved, -⟩ :=
      runOn_run hstarted.words hunderway.alive hnull hcreate hbody
    refine ⟨hdeeds, hwritten, ⟨removal, hremoval, ?_⟩, ?_, ?_⟩
    · have hread := leads_collect v.deeds leaf start ended.code v rfl
      rw [hremoved, hended, readDeeds, show _ = _ from hread]
    · intro failure hfail
      rw [hended] at hfail
      cases hfail
    · intro other hok
      rw [hended] at hok
      cases hok
      have hstatus : statusOf settings v = statusOf settings w := by
        rw [statusOf, statusOf, hchild]
      rw [houtcome, hstatus]
      cases ((collect leaf start ended.code).runOn v).1 <;> rfl

/-- A run whose command was not started fails, and does nothing but calls. -/
theorem run_of_not_started (hfaults : h.FaultsOnly)
    (hnever : ¬ ∃ leaf start w, Started settings command limit h leaf start w) :
    (∃ failure, ((run settings command limit).runOn h).1 = .error failure) ∧
      h.CalledOnly ((run settings command limit).runOn h).2 := by
  by_cases hwords : command.words = []
  · rw [run, if_pos (by simpa using hwords)]
    exact ⟨⟨_, rfl⟩, .refl h⟩
  have hP := Host.treeless_calledOnly h
  have hkept := Leaf.keeps_create hP.toUnobserving (hP.allowsGroups settings) limit
  cases hcreate : (Leaf.create settings limit).runOn h with
  | mk outcome made =>
    have hmade := hkept.after hcreate (.refl h)
    cases outcome with
    | error failure =>
      rw [run, if_neg (by simpa using hwords), Action.runOn_bind_error hcreate]
      exact ⟨⟨failure, rfl⟩, hmade⟩
    | ok leaf =>
      obtain ⟨halive, -, hswap⟩ := Leaf.has_of_create hfaults hcreate
      have hnull := Path.hasNull_of_child ControlFile.isFileName_swapMax hswap.hasNull
      cases hlaunch : (launch settings command leaf).runOn made with
      | mk started v =>
        rcases launch_cases hlaunch with ⟨failure, rfl, hcalls⟩ | ⟨start, _, rfl, -⟩
        · have hlaunch : (Leaf.onHost (launch settings command leaf)).runOn (made, leaf) =
              (.error failure, (v, leaf)) := Leaf.onHost_eq_iff.2 ⟨hlaunch, rfl⟩
          have hbody : (runIn settings command).runOn (made, leaf) = (.error failure, (v, leaf)) := by
            rw [runIn, Action.runOn_bind_ok (Leaf.runOn_self made leaf)]
            exact Action.runOn_bind_error hlaunch
          obtain ⟨houtcome, removal, -, -, hremoved⟩ :=
            runOn_run hwords halive hnull hcreate hbody
          exact ⟨⟨failure, houtcome⟩, (hmade.trans hcalls).trans hremoved⟩
        · exact absurd ⟨leaf, start, v, hwords, made, hcreate, hlaunch⟩ hnever

/-- **A command that was started is reaped before its group is read and removed, and it is killed
exactly when it must be.** Whatever calls fail, and whatever the process does: the run first waits
with the timeout of the command or else of the settings; unless that wait returns, the kernel is asked
to kill everything in the leaf if it offers that, the process group is killed once, and a wait without
a timeout follows. The processor time is read after that, the leaf is removed last, a run that took
too long has the exit code for that, and an interruption is what the run fails with. Where no command
was started the run fails and does nothing with a process. -/
theorem run_reaps_child (settings : Settings) (command : Command) (limit : Limit) (h : Host)
    (hfaults : h.FaultsOnly) :
    (∀ leaf start w, Started settings command limit h leaf start w →
      (∃ calls : List (Call × Path),
        w.deeds = h.deeds ++ (calls.map fun c => .called c.1 c.2) ++ [.started]) ∧
      w.child = h.child ∧
      Reaped settings command leaf start w (afterWait settings command leaf w)
        ((run settings command limit).runOn h).2 ((run settings command limit).runOn h).1 ∧
      (firstWait settings command leaf w = .ok .expired → h.child.status = .empty →
        (∀ usage, ((run settings command limit).runOn h).1 = .ok usage →
          usage.exitCode = timeoutCode) ∧
        ∀ usage t,
          (collect leaf start timeoutCode).runOn (afterWait settings command leaf w) = (.ok usage, t) →
            ((run settings command limit).runOn h).1 = .ok usage)) ∧
    ((¬ ∃ leaf start w, Started settings command limit h leaf start w) →
      (∃ failure, ((run settings command limit).runOn h).1 = .error failure) ∧
        h.CalledOnly ((run settings command limit).runOn h).2) := by
  refine ⟨fun leaf start w hstarted => ?_, run_of_not_started hfaults⟩
  have hreaped := reaped_of_started hfaults hstarted
  obtain ⟨hdeeds, hsame⟩ := hstarted.deeds
  refine ⟨hdeeds, hsame, hreaped, fun hexpired hempty => ?_⟩
  have hstatus : statusOf settings w = "" := by
    rw [statusOf, hsame, hempty]
    split
    · exact (Text.readLossy_eq_empty_iff _).2 rfl
    · rfl
  have houtcome := hreaped.collected _ hexpired
  simp only [hstatus, if_true] at houtcome
  constructor
  · intro usage hok
    rw [hok] at houtcome
    cases hcollect : (collect leaf start WaitOutcome.expired.code).runOn
        (afterWait settings command leaf w) with
    | mk recorded t =>
      rw [hcollect] at houtcome
      cases recorded with
      | error failure => cases houtcome
      | ok found =>
        cases houtcome
        exact (eq_of_collect hcollect).1
  · intro usage t hcollect
    rw [houtcome, show WaitOutcome.expired.code = timeoutCode from rfl, hcollect]
    rfl

/-- A host on which a process runs for five seconds and is gone when its group is to be killed, and
where the request to the kernel is refused. -/
def Host.overrun : Host :=
  { Host.delegated with
    child :=
      { groupFiles := [("cgroup.kill", .empty), ("cpu.stat", "usage_usec 5".toUTF8)]
        duration := some (.ofRatio false 5 1)
        gone := true }
    disturbances :=
      [{ call := .write, name := some ControlFile.kill, effect := .fail (.ofCode 5) }] }

/-- A command that may take half a second. -/
def Command.brief : Command :=
  { words := ["true"], timeout := some (.ofRatio false 1 2) }

/-- The refused request and the missing process group do not keep the run from its last wait. -/
theorem run_reaps_child_overrun :
    Host.overrun.FaultsOnly ∧
    ∃ (leaf : Leaf) (start : Binary64) (w : Host),
      Started Settings.delegated Command.brief (.bytes 5) Host.overrun leaf start w ∧
      firstWait Settings.delegated Command.brief leaf w = .ok .expired ∧
      (afterWait Settings.delegated Command.brief leaf w).deeds = w.deeds ++
        [.child (.waited (some (.ofRatio false 1 2))),
          .called .write (leaf.path.child ControlFile.kill), .child .killed,
          .child (.waited none)] ∧
      ∃ usage, ((run Settings.delegated Command.brief (.bytes 5)).runOn Host.overrun).1 = .ok usage ∧
        usage.exitCode = timeoutCode := by
  have hfaults : Host.overrun.FaultsOnly := by
    simp [Host.FaultsOnly, Host.overrun]
  refine ⟨hfaults, ?_⟩
  have hstart : (startOf? Settings.delegated Command.brief (.bytes 5) Host.overrun).any
      (fun started => started.2.2.offersKill started.1 &&
        firstWait Settings.delegated Command.brief started.1 started.2.2 = .ok .expired) = true := by
    decide +kernel
  obtain ⟨⟨leaf, start, w⟩, hstart, hexpired⟩ := (Option.any_eq_true _ _).1 hstart
  rw [Bool.and_eq_true, decide_eq_true_iff] at hexpired
  obtain ⟨hoffered, hended⟩ := hexpired
  have hstarted := started_of_startOf? hstart
  obtain ⟨hruns, -⟩ :=
    run_reaps_child Settings.delegated Command.brief (.bytes 5) Host.overrun hfaults
  obtain ⟨-, -, hreaped, hcode⟩ := hruns leaf start w hstarted
  obtain ⟨hcode, -⟩ := hcode hended rfl
  have hwaited := hreaped.waited
  rw [hended, hoffered] at hwaited
  refine ⟨leaf, start, w, hstarted, hended, hwaited, ?_⟩
  have hok : ((run Settings.delegated Command.brief (.bytes 5)).runOn Host.overrun).1.isOk = true := by
    decide +kernel
  cases hrun : ((run Settings.delegated Command.brief (.bytes 5)).runOn Host.overrun).1 with
  | error failure =>
    rw [hrun] at hok
    cases hok
  | ok usage => exact ⟨usage, rfl, hcode usage hrun⟩

end MemoryLimit
