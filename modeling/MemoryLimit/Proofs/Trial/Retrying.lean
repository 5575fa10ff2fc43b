import Mathlib
import MemoryLimit.Proofs.Host.Nulls
import MemoryLimit.Proofs.Trial.Removal

/-!
# Attempts to remove a group

A group is removed in a row of attempts with a pause between two of them, since the kernel may still
be clearing away its last process. The row ends with the first attempt that leaves no group behind,
or when there were as many attempts as are allowed. Removing a leaf is such a row, whose end is
reported and is never a failure.

What an attempt finds depends on what the others did before, so the outcomes of a row are those of
the attempts on the hosts that the earlier ones leave. Any row of faults comes up on some host.

## Main definitions

* `Host.retried`, `Host.outcomeAt` — an attempt with its pause, and the outcomes of a row of them.
* `Host.GoneAt` — after the attempt there is no group.
* `Host.Attempted` — how many attempts were made, and what was done.
* `Host.Refuses`, `Host.failing` — the next attempts fail, each with a given fault.
* `Event.tellsOfStay` — the warning that a group could not be removed.

## Main statements

* `runOn_removeGroupIn` — a removal takes the attempts that it needs and no more.
* `Host.Refuses.outcomeAt` — any row of faults comes up on some host.
* `Leaf.removal_retries` — removals take the attempts that they need, and removing a leaf never fails.
-/
namespace MemoryLimit

open MemoryLimit.Action (Keeps FailsByFault)

variable {h t : Host} {p : Path} {delay : Figure} {attempts tries : ℕ} {leaf : Leaf}

namespace Host

/-! ## Rows of attempts -/

/-- No pause fails. -/
def SleepsWell (h : Host) : Prop :=
  ∀ d ∈ h.disturbances, d.call = .sleep → ∀ fault, d.effect ≠ .fail fault

/-- The host after an attempt to remove a directory and the pause that follows. -/
def retried (p : Path) (delay : Figure) (h : Host) : Host :=
  ((nap delay).runOn ((removeDirectory p).runOn h).2).2

/-- The outcome of an attempt to remove a directory, by the number of those before it. -/
def outcomeAt (h : Host) (p : Path) (delay : Figure) (i : ℕ) : Except Failure Unit :=
  ((removeDirectory p).runOn ((retried p delay)^[i] h)).1

/-- After an attempt there is no directory: it was removed, or there was none. -/
def GoneAt (h : Host) (p : Path) (delay : Figure) (i : ℕ) : Prop :=
  h.outcomeAt p delay i = .ok () ∨
    ∃ fault, h.outcomeAt p delay i = .error (.os fault) ∧ fault.code = OsFault.noEntry

theorem saysGone_eq_true_iff {outcome : Except Failure Unit} :
    saysGone outcome = true ↔
      outcome = .ok () ∨ ∃ fault, outcome = .error (.os fault) ∧ fault.code = OsFault.noEntry := by
  match outcome with
  | .ok () => simp [saysGone]
  | .error failure => cases failure <;> simp [saysGone]

/-- The later attempts are those on the host that the first one and its pause leave. -/
theorem goneAt_succ (i : ℕ) :
    h.GoneAt p delay (i + 1) ↔ (h.retried p delay).GoneAt p delay i := Iff.rfl

/-- A pause that does not fail lets the next attempt follow. -/
theorem SleepsWell.nap_eq_ok (hsleeps : h.SleepsWell) (delay : Figure) :
    ((nap delay).runOn h).1 = .ok () := by
  rw [nap, Action.runOn_bind_ok (Action.runOn_modify _ h), pass,
    Action.runOn_bind_ok (runOn_disturb .sleep .empty _)]
  split
  · rename_i fault heffect
    obtain ⟨d, hd, hcall, hfail⟩ := exists_of_strike heffect
    exact absurd hfail (hsleeps d hd hcall fault)
  · rfl

/-- A call brings up no pause that fails. -/
theorem SleepsWell.of_strike (hsleeps : h.SleepsWell) {call : Call} {name : String}
    (hleft : t.disturbances = (Disturbance.strike call name h.disturbances).2) : t.SleepsWell := by
  intro d hd hcall
  rw [hleft] at hd
  obtain ⟨e, he, hcall', heffect⟩ := exists_of_mem_strike hd
  rw [heffect]
  exact hsleeps e he (hcall'.symm.trans hcall)

theorem SleepsWell.removeDirectory (hsleeps : h.SleepsWell) (p : Path) :
    Host.SleepsWell ((removeDirectory p).runOn h).2 := by
  obtain ⟨tree, htree⟩ := exists_tree_of_removeDirectory p h
  exact hsleeps.of_strike (by rw [htree])

theorem SleepsWell.retried (hsleeps : h.SleepsWell) (p : Path) (delay : Figure) :
    (h.retried p delay).SleepsWell :=
  (hsleeps.removeDirectory p).of_strike (by rw [Host.retried, nap_snd])

theorem deeds_retried (p : Path) (delay : Figure) (h : Host) :
    (h.retried p delay).deeds = h.deeds ++ [.called .rmdir p, .called .sleep .empty] := by
  rw [retried, nap_snd, deeds_removeDirectory]
  simp

theorem naps_retried (p : Path) (delay : Figure) (h : Host) :
    (h.retried p delay).naps = h.naps ++ [delay] := by
  obtain ⟨tree, htree⟩ := exists_tree_of_removeDirectory p h
  rw [retried, nap_snd, htree]

/-- A row of attempts to remove a directory: all but the last one were in vain, the last one was too
only if no more are allowed, and the others are followed by a pause each. -/
structure Attempted (p : Path) (delay : Figure) (attempts tries : ℕ) (h t : Host) : Prop where
  tries_le : tries ≤ attempts
  in_vain : ∀ i, i + 1 < tries → ¬ h.GoneAt p delay i
  enough : tries < attempts → ∃ i, tries = i + 1 ∧ h.GoneAt p delay i
  deeds_eq : t.deeds = h.deeds ++
    (List.replicate tries (.called .rmdir p)).intersperse (.called .sleep .empty)
  naps_eq : t.naps = h.naps ++ List.replicate (tries - 1) delay

/-- One attempt ends the row, if it helps or no more are allowed. -/
theorem attempted_one (hlast : attempts = 0 ∨ h.GoneAt p delay 0) :
    Attempted p delay (attempts + 1) 1 h ((removeDirectory p).runOn h).2 := by
  obtain ⟨tree, htree⟩ := exists_tree_of_removeDirectory p h
  refine ⟨by omega, by omega, fun hmore => ?_, by rw [htree]; rfl, by rw [htree]; simp⟩
  rcases hlast with rfl | hgone
  · omega
  · exact ⟨0, rfl, hgone⟩

/-- An attempt in vain and a pause go before the rest of the row. -/
theorem Attempted.cons (hgone : ¬ h.GoneAt p delay 0) (hmore : attempts ≠ 0)
    (hrest : Attempted p delay attempts tries (h.retried p delay) t) :
    Attempted p delay (attempts + 1) (tries + 1) h t := by
  -- as attempts are allowed, the rest of the row is not empty
  obtain ⟨more, rfl⟩ : ∃ more, tries = more + 1 := by
    rcases Nat.eq_zero_or_pos tries with rfl | hpos
    · obtain ⟨i, hi, -⟩ := hrest.enough (by omega)
      omega
    · exact ⟨tries - 1, by omega⟩
  refine ⟨Nat.succ_le_succ hrest.tries_le, ?_, ?_, ?_, ?_⟩
  · rintro (_ | i) hi
    · exact hgone
    · rw [goneAt_succ]
      exact hrest.in_vain i (by omega)
  · intro htries
    obtain ⟨i, hi, hlast⟩ := hrest.enough (by omega)
    exact ⟨i + 1, by omega, (goneAt_succ i).2 hlast⟩
  · rw [hrest.deeds_eq, deeds_retried]
    simp [List.replicate_succ]
  · rw [hrest.naps_eq, naps_retried, List.append_assoc]
    simp [List.replicate_succ]

end Host

open Host (Attempted)

/-- **A removal takes the attempts that it needs and no more**, and answers whether one of them left
no group behind. -/
theorem runOn_removeGroupIn (hnull : p.hasNull = false) (hsleeps : h.SleepsWell) (delay : Figure)
    (attempts : ℕ) :
    ∃ gone tries t, (removeGroupIn p delay attempts).runOn h = (.ok gone, t) ∧
      (gone = true ↔ ∃ i < attempts, h.GoneAt p delay i) ∧
      Attempted p delay attempts tries h t := by
  induction attempts generalizing h with
  | zero =>
    refine ⟨false, 0, h, rfl, by simp, le_rfl, by omega, by omega, ?_, ?_⟩
    · simp
    · simp
  | succ attempts ih =>
    have hfirst : saysGone ((Host.removeDirectory p).runOn h).1 = true ↔ h.GoneAt p delay 0 :=
      Host.saysGone_eq_true_iff
    rw [removeGroupIn, Action.runOn_bind_ok (runOn_tryRemove hnull h)]
    by_cases hgone : h.GoneAt p delay 0
    · rw [if_pos (hfirst.2 hgone)]
      exact ⟨true, 1, _, rfl, by simp only [true_iff]; exact ⟨0, by omega, hgone⟩,
        Host.attempted_one (.inr hgone)⟩
    rw [if_neg (hfirst.not.2 hgone)]
    by_cases hlast : attempts = 0
    · subst hlast
      rw [if_pos rfl]
      refine ⟨false, 1, _, rfl, ?_, Host.attempted_one (.inl rfl)⟩
      simp [hgone]
    · have hnap : (Host.nap delay).runOn ((Host.removeDirectory p).runOn h).2 =
          (.ok (), h.retried p delay) :=
        Prod.ext ((hsleeps.removeDirectory p).nap_eq_ok delay) rfl
      obtain ⟨gone, tries, t, hrun, hanswer, hrest⟩ := ih (hsleeps.retried p delay)
      rw [if_neg hlast, Action.runOn_bind_ok hnap, hrun]
      refine ⟨gone, tries + 1, t, rfl, ?_, hrest.cons hgone hlast⟩
      rw [hanswer]
      constructor
      · rintro ⟨i, hi, hlater⟩
        exact ⟨i + 1, by omega, (Host.goneAt_succ i).2 hlater⟩
      · rintro ⟨_ | i, hi, hlater⟩
        · exact absurd hlater hgone
        · exact ⟨i, by omega, (Host.goneAt_succ i).1 hlater⟩

/-! ## Rows of faults -/

namespace Host

/-- An attempt to remove a directory that fails. -/
def refusal (fault : OsFault) : Disturbance :=
  { call := .rmdir, times := some 1, effect := .fail fault }

/-- The same host, where the next attempts to remove a directory fail, each with its fault. -/
def failing (h : Host) (faults : List OsFault) : Host :=
  { h with disturbances := faults.map refusal }

/-- The next attempts to remove a directory fail with the given faults, and then one goes well.
Disturbances that are used up may go before those of these attempts. -/
structure Refuses (h : Host) (p : Path) (faults : List OsFault) : Prop where
  hasNull : p.hasNull = false
  goes : ∃ tree, h.tree.removeDirectory h.interfaceFilesVanish h.directory p = .ok tree
  disturbances : ∃ spent, (∀ d ∈ spent, d.call = .rmdir ∧ d.times = some 0) ∧
    h.disturbances = spent ++ faults.map refusal

variable {fault : OsFault} {faults : List OsFault}

theorem Refuses.sleepsWell (hrefuses : h.Refuses p faults) : h.SleepsWell := by
  obtain ⟨spent, hspent, hleft⟩ := hrefuses.disturbances
  intro d hd hcall
  rw [hleft, List.mem_append, List.mem_map] at hd
  rcases hd with hd | ⟨fault, -, rfl⟩
  · simp [(hspent d hd).1] at hcall
  · simp [refusal] at hcall

/-- An attempt that fails uses its disturbance up. -/
theorem Refuses.retried (hrefuses : h.Refuses p (fault :: faults)) (delay : Figure) :
    ((removeDirectory p).runOn h).1 = .error (.os fault) ∧
      (h.retried p delay).Refuses p faults := by
  obtain ⟨spent, hspent, hleft⟩ := hrefuses.disturbances
  set used := spent ++ [(refusal fault).used] with hused
  have hall : ∀ d ∈ used, d.call = .rmdir ∧ d.times = some 0 := by
    intro d hd
    rcases List.mem_append.1 hd with hd | hd
    · exact hspent d hd
    · rw [List.mem_singleton.1 hd]
      exact ⟨rfl, rfl⟩
  have hrmdir : Disturbance.strike .rmdir p.name h.disturbances =
      (some (.fail fault), used ++ faults.map refusal) := by
    rw [hleft, strike_append fun d hd => by simp [Disturbance.concerns, (hspent d hd).2], hused,
      List.append_assoc]
    rfl
  have hrun : (removeDirectory p).runOn h =
      (.error (.os fault),
        { h with
          deeds := h.deeds ++ [.called .rmdir p]
          disturbances := used ++ faults.map refusal }) := by
    rw [removeDirectory, pass, bind_assoc, Action.runOn_bind_ok (runOn_disturb .rmdir p h), hrmdir]
    rfl
  have hsleep : Disturbance.strike .sleep Path.empty.name (used ++ faults.map refusal) =
      (none, used ++ faults.map refusal) := by
    apply strike_of_not_concerned
    intro d hd
    rcases List.mem_append.1 hd with hd | hd
    · simp [Disturbance.concerns, (hall d hd).1]
    · obtain ⟨fault, -, rfl⟩ := List.mem_map.1 hd
      rfl
  refine ⟨by rw [hrun], ?_⟩
  rw [Host.retried, nap_snd, hrun]
  exact ⟨hrefuses.hasNull, hrefuses.goes, used, hall, by rw [hsleep]⟩

/-- When all disturbances are used up, an attempt goes well. -/
theorem Refuses.removeDirectory (hrefuses : h.Refuses p []) :
    ((removeDirectory p).runOn h).1 = .ok () := by
  obtain ⟨spent, hspent, hleft⟩ := hrefuses.disturbances
  obtain ⟨tree, htree⟩ := hrefuses.goes
  have hrmdir : (Disturbance.strike .rmdir p.name h.disturbances).1 = none := by
    rw [hleft, List.map_nil, List.append_nil,
      strike_of_not_concerned fun d hd => by simp [Disturbance.concerns, (hspent d hd).2]]
  rw [Host.removeDirectory, pass, bind_assoc, Action.runOn_bind_ok (runOn_disturb .rmdir p h), hrmdir,
    pure_bind, Action.runOn_bind_ok (Action.runOn_get _),
    change_eq_ok.2 ⟨hrefuses.hasNull, tree, htree, rfl⟩]

/-- **Any row of faults comes up on some host**, with a success after it. -/
theorem Refuses.outcomeAt (hrefuses : h.Refuses p faults) (delay : Figure) {i : ℕ}
    (hi : i ≤ faults.length) :
    h.outcomeAt p delay i = (faults[i]?).elim (.ok ()) fun fault => .error (.os fault) := by
  induction faults generalizing h i with
  | nil =>
    obtain rfl : i = 0 := by simpa using hi
    exact hrefuses.removeDirectory
  | cons fault faults ih =>
    obtain ⟨hfirst, hrest⟩ := hrefuses.retried delay
    cases i with
    | zero => exact hfirst
    | succ i => exact ih hrest (by simpa using hi)

theorem refuses_failing {tree : Tree} (hnull : p.hasNull = false)
    (hgoes : h.tree.removeDirectory h.interfaceFilesVanish h.directory p = .ok tree)
    (faults : List OsFault) : (h.failing faults).Refuses p faults :=
  ⟨hnull, ⟨tree, hgoes⟩, [], by simp, rfl⟩

end Host

/-! ## Removing a leaf -/

/-- The warning that a group could not be removed. -/
def Event.tellsOfStay (event : Event) : Bool :=
  event.message.level == .warning && event.message.event == "cgroup_destroy_failed"

/-- A removal reports nothing. -/
theorem keeps_journal_removeGroupIn (journal : List Event) (p : Path) (delay : Figure)
    (attempts : ℕ) : Keeps (fun h : Host => h.journal = journal) (removeGroupIn p delay attempts) := by
  have htry : Keeps (fun h : Host => h.journal = journal) (tryRemove p) := by
    refine Keeps.onFault (.bind (fun h hh => ?_) fun _ => .pure _) fun _ => .pure _
    obtain ⟨tree, htree⟩ := Host.exists_tree_of_removeDirectory p h
    rw [htree]
    exact hh
  have hnap : Keeps (fun h : Host => h.journal = journal) (Host.nap delay) := by
    intro h hh
    rw [Host.nap_snd]
    exact hh
  induction attempts with
  | zero => exact .pure _
  | succ attempts ih =>
    refine htry.bind fun gone => ?_
    split
    · exact .pure _
    · split
      · exact .pure _
      · exact hnap.bind fun _ => ih

/-- What became of the removal of a leaf is reported by one event, which is a warning unless the leaf
is gone. -/
theorem removeAndReport_reports (hnull : p.hasNull = false) (h : Host) :
    ∃ t event, (Leaf.removeAndReport p).runOn h = (.ok (), t) ∧ t.journal = h.journal ++ [event] ∧
      (event.tellsOfStay = true ↔ ((removeGroup p).runOn h).1 ≠ .ok true) := by
  have hjournal : ((removeGroup p).runOn h).2.journal = h.journal :=
    keeps_journal_removeGroupIn h.journal p removalDelay _ h rfl
  rw [Leaf.removeAndReport, Action.runOn_onFault, Action.runOn_bind]
  cases hrun : (removeGroup p).runOn h with
  | mk outcome u =>
    rw [hrun] at hjournal
    cases outcome with
    | error failure =>
      obtain ⟨fault, rfl⟩ := failsByFault_removeGroupIn hnull _ _ h failure u hrun
      exact ⟨_, _, rfl, by rw [← hjournal], by simp [Event.tellsOfStay, Event.message]⟩
    | ok gone =>
      cases gone with
      | true => exact ⟨_, _, rfl, by rw [← hjournal], by simp [Event.tellsOfStay, Event.message]⟩
      | false => exact ⟨_, _, rfl, by rw [← hjournal], by simp [Event.tellsOfStay, Event.message]⟩

/-- The path of a leaf that was made has no character that ends paths. -/
theorem Leaf.hasNull_of_create {settings : Settings} {limit : Limit}
    (hrun : (create settings limit).runOn h = (.ok leaf, t)) : leaf.path.hasNull = false := by
  rcases create_cases hrun with ⟨_, hfail, -⟩ | ⟨_, _, _, _, _, _, hok, -, -, -, hfresh, -⟩
  · cases hfail
  · cases hok
    exact hfresh.has.hasNull

/-- **Removals take the attempts that they need, and removing a leaf never fails.** In at most so
many attempts, where no pause fails, a removal says that the group is gone if one of the attempts
leaves none behind; it ends with that attempt, and pauses between its attempts only. Whatever fails
when a leaf is removed, pauses too, the leaf is marked and nothing is raised, and a warning is
reported if the leaf was not marked before and is not known to be gone. -/
theorem Leaf.removal_retries (hnull : leaf.path.hasNull = false) (h : Host) :
    (h.SleepsWell → ∀ (attempts : ℤ) (delay : Figure), ∃ gone tries t,
      (removeGroup leaf.path attempts delay).runOn h = (.ok gone, t) ∧
      (gone = true ↔ ∃ i < attempts.toNat, h.GoneAt leaf.path delay i) ∧
      Attempted leaf.path delay attempts.toNat tries h t) ∧
    ∃ t reported, destroy.runOn (h, leaf) = (.ok (), (t, { leaf with destroyed := true })) ∧
      t.journal = h.journal ++ reported ∧
      reported.countP Event.tellsOfStay =
        if leaf.destroyed = false ∧ ((removeGroup leaf.path).runOn h).1 ≠ .ok true then 1
        else 0 := by
  refine ⟨fun hsleeps attempts delay => runOn_removeGroupIn hnull hsleeps delay _, ?_⟩
  rw [runOn_destroy]
  cases hdestroyed : leaf.destroyed with
  | true =>
    refine ⟨h, [], ?_, by simp, by simp⟩
    rw [if_pos rfl, ← hdestroyed]
  | false =>
    obtain ⟨t, event, hrun, hjournal, htells⟩ := removeAndReport_reports hnull h
    refine ⟨t, [event], ?_, hjournal, ?_⟩
    · rw [if_neg (by simp), hrun]
    · rw [List.countP_singleton]
      simp only [htells, true_and]

/-- The leaf that is made on a host where the first name for it is taken. -/
def Leaf.second : Leaf :=
  ⟨.read "/m/r/g/g00000002", 5, false⟩

/-- Removals fail for ever on this schedule, and so do pauses. -/
def Host.stuck : List Disturbance :=
  [{ call := .rmdir, effect := .fail (.ofCode OsFault.busy) },
    { call := .sleep, effect := .fail (.ofCode OsFault.busy) }]

/-- A leaf that is busy twice is removed with the third attempt. If it stays busy where no pause is
possible, it is not, and that is reported. -/
theorem Leaf.removal_retries_busy :
    let busy : OsFault := .ofCode OsFault.busy
    let rmdir : Deed := .called .rmdir Leaf.second.path
    let sleep : Deed := .called .sleep .empty
    ∃ h, (create Settings.delegated (.bytes 5)).runOn Host.delegated = (.ok Leaf.second, h) ∧
      Leaf.second.path.hasNull = false ∧ (h.failing [busy, busy]).SleepsWell ∧
      (∃ t, (removeGroup Leaf.second.path 5 removalDelay).runOn (h.failing [busy, busy]) =
          (.ok true, t) ∧
        t.deeds = h.deeds ++ [rmdir, sleep, rmdir, sleep, rmdir] ∧
        t.naps = h.naps ++ [removalDelay, removalDelay]) ∧
      ∃ t reported, destroy.runOn ({ h with disturbances := Host.stuck }, Leaf.second) =
          (.ok (), (t, { Leaf.second with destroyed := true })) ∧
        t.journal = h.journal ++ reported ∧ reported.countP Event.tellsOfStay = 1 := by
  intro busy rmdir sleep
  have hmade : ((create Settings.delegated (.bytes 5)).runOn Host.delegated).1 =
      .ok Leaf.second := by decide +kernel
  have hgoes : (((create Settings.delegated (.bytes 5)).runOn Host.delegated).2.tree.removeDirectory
      ((create Settings.delegated (.bytes 5)).runOn Host.delegated).2.interfaceFilesVanish
      ((create Settings.delegated (.bytes 5)).runOn Host.delegated).2.directory
      Leaf.second.path).isOk = true := by decide +kernel
  have hstays : ((removeGroup Leaf.second.path).runOn
      { ((create Settings.delegated (.bytes 5)).runOn Host.delegated).2 with
        disturbances := Host.stuck }).1 ≠ .ok true := by decide +kernel
  cases hrun : (create Settings.delegated (.bytes 5)).runOn Host.delegated with
  | mk outcome h =>
    rw [hrun] at hmade hgoes hstays
    cases hmade
    have hnull := hasNull_of_create hrun
    have hrefuses : (h.failing [busy, busy]).Refuses Leaf.second.path [busy, busy] := by
      cases htree : h.tree.removeDirectory h.interfaceFilesVanish h.directory Leaf.second.path with
      | ok tree => exact Host.refuses_failing hnull htree [busy, busy]
      | error code =>
        rw [htree] at hgoes
        cases hgoes
    have hgone : ∀ i ≤ 2,
        (h.failing [busy, busy]).GoneAt Leaf.second.path removalDelay i ↔ i = 2 := by
      intro i hi
      rw [Host.GoneAt, hrefuses.outcomeAt removalDelay hi]
      interval_cases i <;> simp [busy] <;> decide
    obtain ⟨hremoves, -⟩ := removal_retries hnull (h.failing [busy, busy])
    obtain ⟨gone, tries, t, hremove, hanswer, hrow⟩ := hremoves hrefuses.sleepsWell 5 removalDelay
    obtain rfl : gone = true := hanswer.2 ⟨2, by decide, (hgone 2 le_rfl).2 rfl⟩
    obtain rfl : tries = 3 := by
      have hvain : ¬ 2 + 1 < tries := fun hlt => hrow.in_vain 2 hlt ((hgone 2 le_rfl).2 rfl)
      obtain ⟨i, hi, hlast⟩ := hrow.enough (by simp; omega)
      have := (hgone i (by omega)).1 hlast
      omega
    obtain ⟨-, u, reported, hdestroy, hjournal, htells⟩ :=
      removal_retries hnull { h with disturbances := Host.stuck }
    refine ⟨h, rfl, hnull, hrefuses.sleepsWell, ⟨t, hremove, hrow.deeds_eq, hrow.naps_eq⟩,
      u, reported, hdestroy, hjournal, ?_⟩
    rw [htells, if_pos ⟨rfl, hstays⟩]

end MemoryLimit
