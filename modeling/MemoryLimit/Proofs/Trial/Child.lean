import MemoryLimit.Proofs.Group.Creation
import MemoryLimit.Proofs.Host.Failing
import MemoryLimit.Proofs.Trial.Steps

/-!
# What is done with a child process

The record of what was done outside grows by what each step does: reading or writing a file by one
call, waiting by one wait, killing by one signal. Starting a process ends with the start. Only the
first wait for a process can be interrupted, and after the signal every wait returns.

## Main definitions

* `Action.Leads` — from one property an action leads to another one.
* `Host.events` — what was done with the last process.
* `Host.noted` — the host after something more was done with it.
* `Host.offersKill` — the kernel offers to kill everything in a leaf.
* `killDeeds` — what is done to kill everything in a leaf.

## Main statements

* `Host.start_cases` — a process is started last of all, or not at all.
* `runOn_killAll` — killing everything in a leaf always goes through to its last wait.
-/
namespace MemoryLimit

open MemoryLimit.Action (Keeps)

namespace Action

variable {σ α β : Type} {P Q : σ → Prop}

/-- Where the first property held before the action, the second one holds after it, whatever the
action ended with. -/
def Leads (P Q : σ → Prop) (x : Action σ α) : Prop :=
  ∀ s, P s → Q (x.runOn s).2

theorem Leads.bind {x : Action σ α} {f : α → Action σ β} (hx : Leads P Q x)
    (hf : ∀ a, Keeps Q (f a)) : Leads P Q (x >>= f) := by
  intro s hs
  have hfirst := hx s hs
  rw [runOn_bind]
  cases hrun : x.runOn s with
  | mk outcome t =>
    rw [hrun] at hfirst
    cases outcome with
    | ok a => exact hf a t hfirst
    | error e => exact hfirst

theorem Leads.tryCatch {x : Action σ α} {handle : Failure → Action σ α} (hx : Leads P Q x)
    (hhandle : ∀ e, Keeps Q (handle e)) : Leads P Q (tryCatch x handle) := by
  intro s hs
  have hfirst := hx s hs
  rw [runOn_tryCatch]
  cases hrun : x.runOn s with
  | mk outcome t =>
    rw [hrun] at hfirst
    cases outcome with
    | ok a => exact hfirst
    | error e => exact hhandle e t hfirst

theorem Leads.onFault {x : Action σ α} {handle : OsFault → Action σ α} (hx : Leads P Q x)
    (hhandle : ∀ fault, Keeps Q (handle fault)) : Leads P Q (x.onFault handle) := by
  refine hx.tryCatch fun e => ?_
  cases e with
  | os fault => exact hhandle fault
  | _ => exact .throw _

end Action

open MemoryLimit.Action (Leads)

namespace Host

variable {h t u : Host} {p : Path}

/-! ## Calls -/

/-- The record has these deeds. -/
abbrev Did (deeds : List Deed) (h : Host) : Prop :=
  h.deeds = deeds

theorem keeps_did_report (deeds : List Deed) (event : Event) : Keeps (Did deeds) (report event) :=
  .modify fun _ h => h

theorem keeps_did_tick (deeds : List Deed) : Keeps (Did deeds) tick := by
  refine .modifyGet fun h hh => ?_
  split <;> exact hh

/-- Reading a file is one call. -/
theorem leads_readText (deeds : List Deed) (p : Path) :
    Leads (Did deeds) (Did (deeds ++ [.called .read p])) (readText p) := by
  have hdisturb : Leads (Did deeds) (Did (deeds ++ [.called .read p])) (disturb .read p) := by
    intro h hh
    rw [runOn_disturb, ← show h.deeds = deeds from hh]
  refine hdisturb.bind fun effect => ?_
  split
  · exact .throw _
  · exact .pure _
  · exact keeps_openText p

/-- Writing a file is one call. -/
theorem leads_writeText (deeds : List Deed) (p : Path) (text : String) :
    Leads (Did deeds) (Did (deeds ++ [.called .write p])) (writeText p text) := by
  have hdisturb : Leads (Did deeds) (Did (deeds ++ [.called .write p])) (disturb .write p) := by
    intro h hh
    rw [runOn_disturb, ← show h.deeds = deeds from hh]
  refine hdisturb.bind fun effect => ?_
  split
  · exact .throw _
  · exact .pure _
  · exact keeps_change fun _ _ hh _ => hh

/-! ## Events of a process -/

/-- What was done with the last process that was started. -/
def events (h : Host) : List ChildEvent :=
  (h.launches.getLast?.map Launch.events).getD []

/-- The host after something more was done with the last process. -/
def noted (h : Host) (event : ChildEvent) : Host :=
  { h with
    deeds := h.deeds ++ [.child event]
    launches :=
      match h.launches.getLast? with
      | some last => h.launches.dropLast ++ [{ last with events := last.events ++ [event] }]
      | none => h.launches }

theorem runOn_noteChild (event : ChildEvent) (h : Host) :
    (noteChild event).runOn h = (.ok (), h.noted event) := by
  rw [noteChild, note, Action.runOn_bind_ok (Action.runOn_modify _ _), Action.runOn_modify, noted]
  dsimp only
  cases h.launches.getLast? <;> rfl

@[simp] theorem noted_deeds (event : ChildEvent) (h : Host) :
    (h.noted event).deeds = h.deeds ++ [.child event] := rfl

@[simp] theorem noted_child (event : ChildEvent) (h : Host) : (h.noted event).child = h.child := rfl

/-- What is done with a process changes nothing but the records. -/
theorem sameGround_noted (event : ChildEvent) (h : Host) : h.SameGround (h.noted event) :=
  ⟨rfl, rfl, rfl, fun d hd => ⟨d, hd, rfl, rfl⟩⟩

theorem noted_launches_ne_nil (event : ChildEvent) (hlaunched : h.launches ≠ []) :
    (h.noted event).launches ≠ [] := by
  rw [noted, List.getLast?_eq_some_getLast hlaunched]
  simp

@[simp] theorem events_noted (event : ChildEvent) (hlaunched : h.launches ≠ []) :
    (h.noted event).events = h.events ++ [event] := by
  simp [events, noted, List.getLast?_eq_some_getLast hlaunched]

/-! ## Waiting -/

theorem runOn_ownExitCode (group : Path) (h : Host) :
    ∃ code, (ownExitCode group).runOn h = (.ok code, h) := by
  rw [ownExitCode, Action.runOn_bind_ok (Action.runOn_get h)]
  dsimp only
  split
  · exact ⟨_, rfl⟩
  · have hlimit : ∃ limit, (limitOf? group).runOn h = (.ok limit, h) := by
      rw [limitOf?, Action.runOn_bind_ok (Action.runOn_get h)]
      split
      · split
        · exact ⟨_, rfl⟩
        · exact ⟨_, rfl⟩
      · exact ⟨_, rfl⟩
    obtain ⟨limit, hlimit⟩ := hlimit
    rw [Action.runOn_bind_ok hlimit]
    split
    · split
      · exact ⟨_, rfl⟩
      · exact ⟨_, rfl⟩
    · exact ⟨_, rfl⟩

/-- How the next wait for the process in a group ends. -/
def nextWait (h : Host) (group : Path) (timeout : Option Binary64) : Except Failure WaitOutcome :=
  ((wait group timeout).runOn h).1

/-- A wait is recorded, however it ends; only the first one can be interrupted, and one after the
signal returns. -/
theorem runOn_wait (group : Path) (timeout : Option Binary64) (h : Host) :
    ∃ code, (wait group timeout).runOn h =
      (if h.child.interrupted && h.events.isEmpty then .error .interrupted
        else if h.events.contains .killed then .ok (.exited killedCode)
        else if expires h.child.duration timeout then .ok .expired
        else .ok (.exited code),
      h.noted (.waited timeout)) := by
  have hbefore : childEvents.runOn h = (.ok h.events, h) := rfl
  obtain ⟨code, hcode⟩ := runOn_ownExitCode group (h.noted (.waited timeout))
  refine ⟨code, ?_⟩
  rw [wait, Action.runOn_bind_ok hbefore, Action.runOn_bind_ok (runOn_noteChild _ h),
    Action.runOn_bind_ok (Action.runOn_get _)]
  dsimp only
  rw [noted_child]
  by_cases hinterrupted : (h.child.interrupted && h.events.isEmpty) = true
  · rw [if_pos hinterrupted, if_pos hinterrupted]
    rfl
  rw [if_neg hinterrupted, if_neg hinterrupted]
  by_cases hkilled : h.events.contains .killed = true
  · rw [if_pos hkilled, if_pos hkilled]
    rfl
  rw [if_neg hkilled, if_neg hkilled]
  by_cases hexpires : expires h.child.duration timeout = true
  · rw [if_pos hexpires, if_pos hexpires]
    rfl
  rw [if_neg hexpires, if_neg hexpires, Action.runOn_bind_ok hcode]
  rfl

theorem runOn_nextWait (group : Path) (timeout : Option Binary64) (h : Host) :
    (wait group timeout).runOn h = (h.nextWait group timeout, h.noted (.waited timeout)) := by
  obtain ⟨code, hwait⟩ := runOn_wait group timeout h
  rw [nextWait, hwait]

/-- A wait for a process that was killed returns. -/
theorem nextWait_of_killed (group : Path) (timeout : Option Binary64)
    (hkilled : ChildEvent.killed ∈ h.events) :
    h.nextWait group timeout = .ok (.exited killedCode) := by
  obtain ⟨code, hwait⟩ := runOn_wait group timeout h
  have hevents : h.events ≠ [] := List.ne_nil_of_mem hkilled
  rw [nextWait, hwait]
  simp [hkilled, hevents]

/-- Only an interruption keeps the first wait from an answer. -/
theorem eq_interrupted_of_nextWait {group : Path} {timeout : Option Binary64} {failure : Failure}
    (hwait : h.nextWait group timeout = .error failure) :
    failure = .interrupted ∧ h.child.interrupted = true := by
  obtain ⟨code, hrun⟩ := runOn_wait group timeout h
  rw [nextWait, hrun] at hwait
  dsimp only at hwait
  split at hwait
  · rename_i hinterrupted
    cases hwait
    simp only [Bool.and_eq_true] at hinterrupted
    exact ⟨rfl, hinterrupted.1⟩
  · split at hwait
    · cases hwait
    · split at hwait <;> cases hwait

/-! ## Starting -/

/-- **A process is started last of all, or not at all**: what its start leaves in files comes before,
and a start that fails is none. -/
theorem start_cases {launch : Launch} {group : Path} {output errors : Option Path}
    {outcome : Except Failure Unit}
    (hrun : (start launch group output errors).runOn h = (outcome, t)) :
    (∃ failure, outcome = .error failure ∧ t.deeds = h.deeds ∧ t.child = h.child) ∨
      outcome = .ok () ∧ t.deeds = h.deeds ++ [.started] ∧ t.child = h.child ∧
        t.launches = h.launches ++ [launch] := by
  let P : Host → Prop := fun u =>
    u.deeds = h.deeds ∧ u.child = h.child ∧ u.launches = h.launches ++ [launch]
  have hwrite : ∀ p, AllowsWriting P p := fun _ _ _ _ hu _ => hu
  have hlaunch : P { h with launches := h.launches ++ [launch] } := ⟨rfl, rfl, rfl⟩
  have hplaced : ∀ (file : Option Path) (bytes : ByteArray), Keeps P (placeOutput file bytes) :=
    fun _ => keeps_placeOutput fun _ _ => hwrite _
  have hgroup : Keeps P (placeFiles group h.child.groupFiles) :=
    keeps_placeFiles fun _ _ => hwrite _
  have hfail : ∀ failure u, P u → outcome = .error failure → u = t →
      ∃ failure, outcome = .error failure ∧ t.deeds = h.deeds ∧ t.child = h.child := by
    rintro failure u ⟨hdeeds, hchild, -⟩ houtcome rfl
    exact ⟨failure, houtcome, hdeeds, hchild⟩
  rw [start, Action.runOn_bind_ok (Action.runOn_modify _ h),
    Action.runOn_bind_ok (Action.runOn_get _)] at hrun
  dsimp only at hrun
  split at hrun
  · cases hrun
    exact .inl (hfail _ _ hlaunch rfl rfl)
  rcases Action.runOn_bind_cases hrun with ⟨failure, hfirst, houtcome⟩ | ⟨_, u₁, hfirst, hrun⟩
  · exact .inl (hfail _ _ (hgroup.after hfirst hlaunch) houtcome rfl)
  have hu₁ := hgroup.after hfirst hlaunch
  rcases Action.runOn_bind_cases hrun with ⟨failure, hsecond, houtcome⟩ | ⟨_, u₂, hsecond, hrun⟩
  · exact .inl (hfail _ _ ((hplaced _ _).after hsecond hu₁) houtcome rfl)
  have hu₂ := (hplaced _ _).after hsecond hu₁
  rcases Action.runOn_bind_cases hrun with ⟨failure, hthird, houtcome⟩ | ⟨_, u₃, hthird, hrun⟩
  · exact .inl (hfail _ _ ((hplaced _ _).after hthird hu₂) houtcome rfl)
  obtain ⟨hdeeds, hchild, hlaunches⟩ := (hplaced _ _).after hthird hu₂
  cases hrun
  refine .inr ⟨rfl, ?_, hchild, hlaunches⟩
  rw [← hdeeds]

/-! ## Looking for a file -/

/-- Where the way to a path is clear, looking whether there is something at it gives an answer. -/
theorem runOn_pathExists {place : Place} (hnull : p.hasNull = false)
    (hplace : h.tree.locate h.directory p = .ok place) :
    (pathExists p).runOn h = (.ok (h.tree.find h.directory p).isOk, h) := by
  have hfind : h.tree.find h.directory p =
      (h.tree.get? place).elim (.error OsFault.noEntry) .ok := by
    rw [Tree.find, hplace]
    cases hnode : h.tree.get? place <;> simp only [bind, Except.bind, hnode] <;> rfl
  rw [pathExists, nodeAt?, Action.runOn_bind, Action.runOn_tryCatch, Action.runOn_map, runOn_lookUp,
    hnull, hfind]
  cases h.tree.get? place <;> rfl

end Host

/-! ## Killing everything in a leaf -/

variable {leaf : Leaf} {h t u : Host}

/-- The kernel offers to kill everything in a leaf: there is something at the path for that. -/
def Host.offersKill (h : Host) (leaf : Leaf) : Bool :=
  (h.tree.find h.directory (leaf.path.child ControlFile.kill)).isOk

/-- What is done to kill everything in a leaf: the kernel is asked to, if it offers that, the process
group is killed, and a wait without a timeout follows. -/
def killDeeds (leaf : Leaf) (offered : Bool) : List Deed :=
  (if offered then [.called .write (leaf.path.child ControlFile.kill)] else []) ++
    [.child .killed, .child (.waited none)]

/-- A process was started in a leaf that is still there. -/
structure Underway (leaf : Leaf) (h : Host) : Prop where
  alive : leaf.destroyed = false
  hasNull : (leaf.path.child ControlFile.kill).hasNull = false
  reachable : ∃ place, h.tree.locate h.directory (leaf.path.child ControlFile.kill) = .ok place
  launched : h.launches ≠ []

theorem Underway.noted (hunderway : Underway leaf h) (event : ChildEvent) :
    Underway leaf (h.noted event) where
  alive := hunderway.alive
  hasNull := hunderway.hasNull
  reachable := hunderway.reachable
  launched := Host.noted_launches_ne_nil event hunderway.launched

/-- The request to kill everything in a leaf is the text of one in the file for that. -/
theorem Leaf.runOn_kill (hunderway : Underway leaf h) :
    Leaf.kill.runOn (h, leaf) =
      if h.offersKill leaf then
        (((writeValue (leaf.path.child ControlFile.kill) "1").runOn h).1,
          (((writeValue (leaf.path.child ControlFile.kill) "1").runOn h).2, leaf))
      else (.ok (), (h, leaf)) := by
  obtain ⟨place, hplace⟩ := hunderway.reachable
  have hlook : (onHost (Host.pathExists (leaf.path.child ControlFile.kill))).runOn (h, leaf) =
      (.ok (h.offersKill leaf), (h, leaf)) :=
    onHost_eq_iff.2 ⟨Host.runOn_pathExists hunderway.hasNull hplace, rfl⟩
  rw [kill, Action.runOn_bind_ok (runOn_self h leaf), Action.runOn_bind_ok hlook]
  by_cases hoffered : h.offersKill leaf = true
  · rw [if_pos hoffered, if_pos hoffered, writeNumber, Action.runOn_bind_ok (runOn_self h leaf),
      if_neg (by simp [hunderway.alive])]
    rw [show writeInteger 1 = .ok "1" by decide]
    dsimp only
    rw [writeText, Action.runOn_bind_ok (runOn_self h leaf), if_neg (by simp [hunderway.alive])]
    rfl
  · rw [if_neg hoffered, if_neg hoffered]
    rfl

/-- Writing a value to a file that is there succeeds if it is not disturbed. -/
theorem runOn_writeValue_of_undisturbed {p : Path} {bytes : ByteArray} (value : String)
    (hundisturbed : h.Undisturbed .write p) (hfile : h.Has p (.file bytes)) :
    ∃ t, (writeValue p value).runOn h = (.ok (), t) ∧ t.Has p (.file value.toUTF8) := by
  obtain ⟨place, hplace, hnode⟩ := Host.find_eq_ok_iff.1 hfile.find
  let u : Host := { h with deeds := h.deeds ++ [.called .write p],
                           disturbances := (Disturbance.strike .write p.name h.disturbances).2 }
  have hwritten : u.tree.writeFile u.directory p value.toUTF8 =
      .ok (u.tree.insert place (.file value.toUTF8)) := by
    rw [Tree.writeFile, show u.tree.locate u.directory p = .ok place from hplace]
    have hno : u.tree.isDirectory place = false := by
      simp [Tree.isDirectory, show u.tree.get? place = some (.file bytes) from hnode]
    simp [hno, bind, Except.bind, pure, Except.pure]
  have hchange : (Host.change p fun t directory p => t.writeFile directory p value.toUTF8).runOn u =
      (.ok (), { u with tree := u.tree.insert place (.file value.toUTF8) }) :=
    Host.change_eq_ok.2 ⟨hfile.hasNull, _, hwritten, rfl⟩
  have hwrite : (Host.writeText p value).runOn h =
      (.ok (), { u with tree := u.tree.insert place (.file value.toUTF8) }) := by
    rw [Host.writeText, Action.runOn_bind_ok (Host.runOn_disturb .write p h),
      show (Disturbance.strike .write p.name h.disturbances).1 = none from hundisturbed]
    exact hchange
  refine ⟨_, ?_, Host.has_of_writeFile hchange⟩
  rw [writeValue, Action.runOn_onFault, hwrite]

/-- **The request to the kernel** is made if the kernel offers that, and its refusal is no failure. -/
theorem runOn_killLeaf (hunderway : Underway leaf h) :
    ∃ t, killLeaf.runOn (h, leaf) = (.ok (), (t, leaf)) ∧
      t.deeds = h.deeds ++
        (if h.offersKill leaf then [.called .write (leaf.path.child ControlFile.kill)] else []) ∧
      t.child = h.child ∧ t.launches = h.launches ∧
      (h.Undisturbed .write (leaf.path.child ControlFile.kill) →
        (∃ bytes, h.Has (leaf.path.child ControlFile.kill) (.file bytes)) →
        t.Has (leaf.path.child ControlFile.kill) (.file "1".toUTF8)) := by
  generalize hfile : leaf.path.child ControlFile.kill = file
  rw [killLeaf, Action.runOn_bind_ok (Leaf.runOn_self h leaf), Action.runOn_tryCatch,
    Leaf.runOn_kill hunderway, hfile]
  by_cases hoffered : h.offersKill leaf = true
  · rw [if_pos hoffered, if_pos hoffered]
    let P : Host → Prop := fun u => u.child = h.child ∧ u.launches = h.launches
    have hP : Host.Treeless P := by
      constructor
      · constructor <;> intros <;> assumption
      · intros
        assumption
    have hkept : Keeps P (writeValue file "1") :=
      keeps_writeValue hP.toUnobserving (hP.allowsWriting _) "1"
    have hdone : Leads (Host.Did h.deeds) (Host.Did (h.deeds ++ [.called .write file]))
        (writeValue file "1") :=
      (Host.leads_writeText h.deeds file "1").onFault fun _ => .throw _
    have hdeeds := hdone h rfl
    obtain ⟨hchild, hlaunches⟩ := hkept h ⟨rfl, rfl⟩
    cases hrun : (writeValue file "1").runOn h with
    | mk outcome t =>
      rw [hrun] at hdeeds hchild hlaunches
      cases outcome with
      | ok _ =>
        refine ⟨t, rfl, hdeeds, hchild, hlaunches, ?_⟩
        rintro hundisturbed ⟨bytes, hhas⟩
        obtain ⟨t', hrun', hwritten⟩ := runOn_writeValue_of_undisturbed "1" hundisturbed hhas
        rw [hrun] at hrun'
        cases hrun'
        exact hwritten
      | error failure =>
        obtain ⟨cause, hcause⟩ : ∃ cause, failure = .unavailable cause := by
          rw [writeValue, Action.runOn_onFault] at hrun
          split at hrun
          · cases hrun
            exact ⟨_, rfl⟩
          · obtain ⟨fault, hfault⟩ := Host.failsByFault_writeText (hfile ▸ hunderway.hasNull) _ _ _ _ hrun
            rename_i hno
            exact absurd (hfault ▸ hrun) (hno _ _)
        subst hcause
        refine ⟨_, rfl, hdeeds, hchild, hlaunches, ?_⟩
        rintro hundisturbed ⟨bytes, hhas⟩
        obtain ⟨t', hrun', -⟩ := runOn_writeValue_of_undisturbed "1" hundisturbed hhas
        rw [hrun] at hrun'
        cases hrun'
  · rw [if_neg hoffered, if_neg hoffered]
    refine ⟨h, rfl, by simp, rfl, rfl, ?_⟩
    rintro - ⟨bytes, hhas⟩
    rw [← hfile] at hhas
    exact absurd (by rw [Host.offersKill, hhas.find]; rfl) hoffered

theorem runOn_killGroup (h : Host) (leaf : Leaf) :
    killGroup.runOn (h, leaf) = (.ok (), (h.noted .killed, leaf)) := by
  have hkilled : (Host.killGroup).runOn h =
      if h.child.gone then (.error (.os (.ofCode OsFault.noProcess)), h.noted .killed)
      else (.ok (), h.noted .killed) := by
    rw [Host.killGroup, Action.runOn_bind_ok (Host.runOn_noteChild _ h),
      Action.runOn_bind_ok (Action.runOn_get _), Host.noted_child]
    cases h.child.gone <;> rfl
  rw [killGroup, Action.runOn_onFault, Leaf.runOn_onHost, hkilled]
  cases h.child.gone <;> rfl

/-- **Killing everything in a leaf goes through to its last wait**, whether or not the kernel refuses
the request and the process group is gone already. -/
theorem runOn_killAll (hunderway : Underway leaf h) :
    ∃ t, killAll.runOn (h, leaf) = (.ok (), (t, leaf)) ∧
      t.deeds = h.deeds ++ killDeeds leaf (h.offersKill leaf) ∧ t.child = h.child ∧
      (h.Undisturbed .write (leaf.path.child ControlFile.kill) →
        (∃ bytes, h.Has (leaf.path.child ControlFile.kill) (.file bytes)) →
        t.Has (leaf.path.child ControlFile.kill) (.file "1".toUTF8)) := by
  obtain ⟨t, hkill, hdeeds, hchild, hlaunches, hwritten⟩ := runOn_killLeaf hunderway
  have hlaunched : t.launches ≠ [] := hlaunches ▸ hunderway.launched
  have hkilled : ChildEvent.killed ∈ (t.noted .killed).events := by
    simp [Host.events_noted _ hlaunched]
  have hwait : (Leaf.onHost (Host.wait leaf.path none)).runOn (t.noted .killed, leaf) =
      (.ok (.exited killedCode), ((t.noted .killed).noted (.waited none), leaf)) := by
    rw [Leaf.runOn_onHost, Host.runOn_nextWait, Host.nextWait_of_killed _ _ hkilled]
  refine ⟨(t.noted .killed).noted (.waited none), ?_, ?_, hchild, fun hundisturbed hhas => ?_⟩
  · rw [killAll, Action.runOn_bind_ok (Leaf.runOn_self h leaf), Action.runOn_bind_ok hkill,
      Action.runOn_bind_ok (runOn_killGroup t leaf), Action.runOn_bind_ok hwait]
    rfl
  · rw [Host.noted_deeds, Host.noted_deeds, hdeeds, killDeeds]
    simp
  · exact ((hwritten hundisturbed hhas).of_sameGround (Host.sameGround_noted _ _)).of_sameGround
      (Host.sameGround_noted _ _)

end MemoryLimit
