import Mathlib
import MemoryLimit.LimitSearch
import MemoryLimit.Proofs.Action

/-!
# The runs of a search

A bench may be watched: every run that is asked for is written down, with its limit and with what
became of it. Nobody who uses the bench can tell, so what is written down while a search uses a
watched bench is what the search did. A run that fails is the last one, and the search fails as it
did; all others are the trials of the search.

## Main definitions

* `Bench.Mirrors` — benches that do the same, seen through a view.
* `Attempt` — a run that was asked for.
* `Bench.observed` — a bench whose runs are written down.
* `FailsLast` — no run but the last one failed.
* `Accounted` — the runs that were written down are the trials that a search keeps.

## Main statements

* `searchLimit_of_compositional` — a search is put together from its trials and reports.
* `Bench.Mirrors.findLimit` — benches that do the same lead to the same search.
* `keepsOr_searchLimit` — the runs of a bisection are its trials, up to a run that fails.
* `findLimitInPlace_cases` — how a search ends, and what it leaves of the history.
-/
namespace MemoryLimit

open MemoryLimit.Action (Compositional KeepsOr compositional_mirrors compositional_keepsOr)

variable {σ τ : Type} {settings : Settings} {history : Option History} {i : Interval}
  {workload : Option RawText}

/-! ## Searches are put together from their trials -/

section Compositional

variable {R : ∀ α : Type, Action τ α → Action σ α → Prop}
  {askᵥ : Number → Action τ Bool} {ask : Number → Action σ Bool}

theorem bisect_of_compositional (hR : Compositional R) {noteᵥ : Step → Action τ Unit}
    {note : Step → Action σ Unit} (hask : ∀ point, R Bool (askᵥ point) (ask point))
    (hnote : ∀ step, R Unit (noteᵥ step) (note step)) (done : Interval → Except Failure Bool)
    (fuel index : ℕ) (i : Interval) :
    R Interval (bisect askᵥ noteᵥ done fuel index i) (bisect ask note done fuel index i) := by
  induction fuel generalizing index i with
  | zero => exact hR.pure i
  | succ fuel ih =>
    rw [bisect, bisect]
    refine hR.bind (hR.liftM _) fun middle => ?_
    split
    · exact hR.pure i
    · refine hR.bind (hask middle) fun succeeded => hR.bind (hR.liftM _) fun left =>
        hR.bind (hnote _) fun _ => hR.bind (hR.liftM _) fun stop => ?_
      split
      · exact hR.pure left
      · exact ih (index + 1) left

theorem search_of_compositional (hR : Compositional R) {noteᵥ : Step → Action τ Unit}
    {note : Step → Action σ Unit} (hask : ∀ point, R Bool (askᵥ point) (ask point))
    (hnote : ∀ step, R Unit (noteᵥ step) (note step)) (i : Interval) (rule : StopRule) :
    R Number (search i rule askᵥ noteᵥ) (search i rule ask note) := by
  refine hR.bind ?_ fun j => hR.pure j.high
  refine hR.bind (hR.liftM _) fun rule => hR.bind (hR.liftM _) fun steps =>
    hR.bind (hR.liftM _) fun stop => ?_
  split
  · exact hR.pure i
  · exact bisect_of_compositional hR hask hnote rule.converged steps 0 i

theorem startingInterval_of_compositional (hR : Compositional R)
    {reportᵥ : Event → Action τ Unit} {report : Event → Action σ Unit}
    (hreport : ∀ event, R Unit (reportᵥ event) (report event))
    (hask : ∀ point, R Bool (askᵥ point) (ask point)) :
    R Interval (startingInterval reportᵥ settings history workload i askᵥ)
      (startingInterval report settings history workload i ask) := by
  rw [startingInterval, startingInterval]
  cases usableRecord? settings history workload i with
  | none => exact hR.pure i
  | some entry =>
    refine hR.bind (hR.liftM _) fun top => ?_
    split
    · refine hR.bind (hask top) fun succeeded => ?_
      split <;> exact hR.bind (hreport _) fun _ => hR.liftM _
    · exact hR.pure i

end Compositional

/-- **A search is put together from its trials and reports**: what relates those of two benches
relates the searches. -/
theorem searchLimit_of_compositional (watched : Bench τ) (bench : Bench σ) (settings : Settings)
    (history : Option History) (i : Interval) (workload : Option RawText) (n : ℤ)
    {R : ∀ α : Type, Action (τ × List Usage) α → Action (σ × List Usage) α → Prop}
    (hR : Compositional R)
    (htrial : ∀ point, R Bool (trial watched settings point) (trial bench settings point))
    (hreport : ∀ event, R Unit (watched.report event).onFirst (bench.report event).onFirst) :
    R _ (searchLimit watched settings history i workload n)
      (searchLimit bench settings history i workload n) :=
  hR.bind (startingInterval_of_compositional hR hreport htrial) fun start =>
    hR.bind (hreport _) fun _ =>
      hR.bind (search_of_compositional hR htrial (fun _ => hreport _) start _) fun _ => hR.pure _

/-! ## Benches that do the same -/

/-- Seen through a view of its state, the first bench is the second one. -/
structure Bench.Mirrors (view : τ → σ) (watched : Bench τ) (bench : Bench σ) : Prop where
  run : ∀ limit, Action.Mirrors view (watched.run limit) (bench.run limit)
  report : ∀ event, Action.Mirrors view (watched.report event) (bench.report event)

theorem Bench.Mirrors.searchLimit {view : τ → σ} {watched : Bench τ} {bench : Bench σ}
    (h : watched.Mirrors view bench) (n : ℤ) :
    Action.Mirrors (Prod.map view id) (searchLimit watched settings history i workload n)
      (MemoryLimit.searchLimit bench settings history i workload n) := by
  have hpair := compositional_mirrors (Prod.map view (id : List Usage → List Usage))
  exact searchLimit_of_compositional watched bench settings history i workload n hpair
    (fun point => hpair.bind (h.run point.floor).onFirst fun usage =>
      hpair.bind (Action.Mirrors.modify fun _ => rfl) fun _ =>
        hpair.pure (settings.succeeded usage))
    (fun event => (h.report event).onFirst)

/-- **Benches that do the same lead to the same search.** -/
theorem Bench.Mirrors.findLimit {view : τ → σ} {watched : Bench τ} {bench : Bench σ}
    (h : watched.Mirrors view bench) (iterations : Option ℤ) :
    Action.Mirrors view (findLimit watched settings history i workload iterations)
      (MemoryLimit.findLimit bench settings history i workload iterations) := by
  refine Action.Mirrors.withSecond history ?_
  rintro ⟨t, held⟩
  -- the history is looked up first, and both benches are given the same one
  have hheld := compositional_mirrors (Prod.map view (id : Option History → Option History))
  exact hheld.bind ((h.searchLimit _).withSecond []).onFirst (fun _ =>
    hheld.bind (hheld.liftM _) fun _ => hheld.bind (Action.Mirrors.modify fun _ => rfl) fun _ =>
      hheld.bind (h.report _).onFirst fun _ => hheld.pure _) (t, held)

/-! ## Watched benches -/

/-- A run that was asked for: its limit, and what became of it. -/
abbrev Attempt := ℤ × Except Failure Usage

/-- A bench whose runs are written down. -/
def Bench.observed (bench : Bench σ) : Bench (σ × List Attempt) where
  run limit := .ofFun fun (s, made) =>
    let (outcome, t) := (bench.run limit).runOn s
    (outcome, (t, made ++ [(limit, outcome)]))
  report event := (bench.report event).onFirst

variable {bench : Bench σ}

/-- Nobody who uses a bench can tell that it is watched. -/
theorem Bench.observed_mirrors (bench : Bench σ) : bench.observed.Mirrors Prod.fst bench where
  run _ _ := rfl
  report _ _ := rfl

/-- No run but the last one failed, and that one as it is told. -/
def FailsLast (e : Failure) (made : List Attempt) : Prop :=
  ∀ (k : ℕ) (limit : ℤ) (failure : Failure), made[k]? = some (limit, .error failure) →
    failure = e ∧ made.length = k + 1

/-- What was written down of a search that did not fail: the runs were made on its bench, and ended
with the records that it keeps. -/
structure Accounted (bench : Bench σ) (made : List Attempt) (trials : List Usage) : Prop where
  made_on : ∀ attempt ∈ made, ∃ s t, (bench.run attempt.1).runOn s = (attempt.2, t)
  outcomes_eq : made.map Prod.snd = trials.map .ok

variable {made : List Attempt} {trials : List Usage}

/-- No run of such a search failed. -/
theorem Accounted.ne_error (h : Accounted bench made trials) {k : ℕ} {limit : ℤ}
    {failure : Failure} : made[k]? ≠ some (limit, .error failure) := by
  intro hfailed
  have houtcome : (made.map Prod.snd)[k]? = some (.error failure) := by
    rw [List.getElem?_map, hfailed]
    rfl
  rw [h.outcomes_eq, List.getElem?_map] at houtcome
  obtain ⟨usage, -, hok⟩ := Option.map_eq_some_iff.1 houtcome
  cases hok

theorem Accounted.failsLast (h : Accounted bench made trials) (e : Failure) : FailsLast e made :=
  fun _ _ _ hfailed => absurd hfailed h.ne_error

/-- A trial is written down, and ends the search if its run fails. -/
theorem keepsOr_trial (bench : Bench σ) (settings : Settings) (point : Number) :
    KeepsOr (fun s : (σ × List Attempt) × List Usage => Accounted bench s.1.2 s.2)
      (fun e s => FailsLast e s.1.2) (trial bench.observed settings point) := by
  rintro ⟨⟨s, made⟩, trials⟩ hs
  have hrun : (Action.onFirst (bench.observed.run point.floor) :
      Action ((σ × List Attempt) × List Usage) Usage).runOn ((s, made), trials) =
      (((bench.run point.floor).runOn s).1, ((((bench.run point.floor).runOn s).2,
        made ++ [(point.floor, ((bench.run point.floor).runOn s).1)]), trials)) := rfl
  rw [trial, Action.runOn_bind, hrun]
  cases houtcome : (bench.run point.floor).runOn s with
  | mk outcome t =>
    cases outcome with
    | ok usage =>
      refine ⟨?_, by rintro _ _ ⟨⟩⟩
      rintro _ _ ⟨⟩
      constructor
      · intro attempt hattempt
        rcases List.mem_append.1 hattempt with hold | hnew
        · exact hs.made_on attempt hold
        · rw [List.mem_singleton.1 hnew]
          exact ⟨s, t, houtcome⟩
      · simp [hs.outcomes_eq]
    | error e =>
      refine ⟨by rintro _ _ ⟨⟩, ?_⟩
      rintro _ _ ⟨⟩ k limit failure hfailed
      -- all runs before this one ended with a record
      rcases Nat.lt_or_ge k made.length with hlt | hge
      · rw [List.getElem?_append_left hlt] at hfailed
        exact absurd hfailed hs.ne_error
      · rw [List.getElem?_append_right hge, List.getElem?_singleton] at hfailed
        split at hfailed
        · cases hfailed
          exact ⟨rfl, by rw [List.length_append, List.length_singleton]; omega⟩
        · cases hfailed

/-- **The runs of a bisection are its trials, up to a run that fails.** -/
theorem keepsOr_searchLimit (bench : Bench σ) (settings : Settings) (history : Option History)
    (i : Interval) (workload : Option RawText) (n : ℤ) :
    KeepsOr (fun s : (σ × List Attempt) × List Usage => Accounted bench s.1.2 s.2)
      (fun e s => FailsLast e s.1.2)
      (searchLimit bench.observed settings history i workload n) := by
  refine searchLimit_of_compositional bench.observed bench.observed settings history i workload n
    (compositional_keepsOr fun e s hs => hs.failsLast e) (keepsOr_trial bench settings) ?_
  -- a report leaves alone what was written down
  intro event s hs
  constructor
  · intro _ t hrun
    obtain rfl : _ = t := congrArg Prod.snd hrun
    exact hs
  · intro e t hrun
    obtain rfl : _ = t := congrArg Prod.snd hrun
    exact hs.failsLast e

/-! ## Searches -/

/-- A search bisects, merges its best trial into the history, and reports its end; the first of these
that fails ends it. -/
theorem runOn_findLimitInPlace (bench : Bench σ) (settings : Settings) (history : Option History)
    (i : Interval) (workload : Option RawText) (iterations : Option ℤ) (s : σ) :
    (findLimitInPlace bench settings i workload iterations).runOn (s, history) =
      match (searchLimit bench settings history i workload
        (iterations.getD settings.iterations)).runOn (s, []) with
      | (.error e, (t, _)) => (.error e, (t, history))
      | (.ok (start, boundary), (t, trials)) =>
        match recordBest history workload (bestTrial settings trials) with
        | .error signal => (.error (.signal signal), (t, history))
        | .ok recorded =>
          match (bench.report (.searchFinished boundary trials.length workload)).runOn t with
          | (.error e, u) => (.error e, (u, recorded))
          | (.ok (), u) =>
            (.ok ⟨boundary, start, trials, bestTrial settings trials⟩, (u, recorded)) := by
  rw [findLimitInPlace, Action.runOn_bind, Action.runOn_get]
  simp only
  rw [Action.runOn_bind, Action.runOn_onFirst, Action.runOn_withSecond]
  rcases (searchLimit bench settings history i workload
    (iterations.getD settings.iterations)).runOn (s, []) with ⟨_ | ⟨start, boundary⟩, t, trials⟩
  · rfl
  simp only [Except.map]
  rw [Action.runOn_bind, Action.runOn_liftM]
  rcases recordBest history workload (bestTrial settings trials) with signal | recorded
  · rfl
  simp only [Signal.raise, Except.mapError]
  rw [Action.runOn_bind, Action.runOn_modify]
  simp only
  rw [Action.runOn_bind, Action.runOn_onFirst]
  rcases (bench.report (.searchFinished boundary trials.length workload)).runOn t with
    ⟨_ | _, u⟩ <;> rfl

/-- The same search, which answers with the history. -/
theorem runOn_findLimit_eq (bench : Bench σ) (settings : Settings) (history : Option History)
    (i : Interval) (workload : Option RawText) (iterations : Option ℤ) (s : σ) :
    (findLimit bench settings history i workload iterations).runOn s =
      match (searchLimit bench settings history i workload
        (iterations.getD settings.iterations)).runOn (s, []) with
      | (.error e, (t, _)) => (.error e, t)
      | (.ok (start, boundary), (t, trials)) =>
        match recordBest history workload (bestTrial settings trials) with
        | .error signal => (.error (.signal signal), t)
        | .ok recorded =>
          match (bench.report (.searchFinished boundary trials.length workload)).runOn t with
          | (.error e, u) => (.error e, u)
          | (.ok (), u) =>
            (.ok (⟨boundary, start, trials, bestTrial settings trials⟩, recorded), u) := by
  rw [findLimit, Action.runOn_withSecond, runOn_findLimitInPlace]
  rcases (searchLimit bench settings history i workload
    (iterations.getD settings.iterations)).runOn (s, []) with ⟨_ | ⟨start, boundary⟩, t, trials⟩
  · rfl
  dsimp only
  rcases recordBest history workload (bestTrial settings trials) with signal | recorded
  · rfl
  dsimp only
  rcases (bench.report (.searchFinished boundary trials.length workload)).runOn t with
    ⟨_ | _, u⟩ <;> rfl

/-- A search reports what its bisection found, with the best of its trials. -/
theorem runOn_findLimit {start : Interval} {recorded : Option History} {iterations : Option ℤ}
    {boundary : ℤ} {s t u : σ}
    (hsearch : (searchLimit bench settings history i workload
      (iterations.getD settings.iterations)).runOn (s, []) = (.ok (start, boundary), (t, trials)))
    (hrecord : recordBest history workload (bestTrial settings trials) = .ok recorded)
    (hreport : (bench.report (.searchFinished boundary trials.length workload)).runOn t =
      (.ok (), u)) :
    (findLimit bench settings history i workload iterations).runOn s =
      (.ok (⟨boundary, start, trials, bestTrial settings trials⟩, recorded), u) := by
  rw [runOn_findLimit_eq, hsearch]
  simp only [hrecord, hreport]

/-- **How a search ends.** The bisection fails, or its best trial cannot be merged, and the history is
as it was; or the best trial is merged, and the search ends as the report of its end does. -/
theorem findLimitInPlace_cases {iterations : Option ℤ} {s t : σ} {outcome : Except Failure Finding}
    {held : Option History}
    (hrun : (findLimitInPlace bench settings i workload iterations).runOn (s, history) =
      (outcome, (t, held))) :
    (∃ e, outcome = .error e ∧ held = history ∧ ∃ trials,
      (searchLimit bench settings history i workload (iterations.getD settings.iterations)).runOn
        (s, []) = (.error e, (t, trials))) ∨
    ∃ start boundary u trials,
      (searchLimit bench settings history i workload (iterations.getD settings.iterations)).runOn
        (s, []) = (.ok (start, boundary), (u, trials)) ∧
      ((∃ signal, outcome = .error (.signal signal) ∧ t = u ∧ held = history) ∨
        recordBest history workload (bestTrial settings trials) = .ok held ∧
        ∃ reported,
          (bench.report (.searchFinished boundary trials.length workload)).runOn u =
            (reported, t) ∧
          outcome = reported.map fun _ =>
            ⟨boundary, start, trials, bestTrial settings trials⟩) := by
  rw [runOn_findLimitInPlace] at hrun
  rcases hsearch : (searchLimit bench settings history i workload
    (iterations.getD settings.iterations)).runOn (s, []) with ⟨e | ⟨start, boundary⟩, u, trials⟩
  · rw [hsearch] at hrun
    cases hrun
    exact .inl ⟨e, rfl, rfl, trials, rfl⟩
  refine .inr ⟨start, boundary, u, trials, rfl, ?_⟩
  simp only [hsearch] at hrun
  rcases hrecord : recordBest history workload (bestTrial settings trials) with signal | recorded
  · simp only [hrecord] at hrun
    cases hrun
    exact .inl ⟨signal, rfl, rfl, rfl⟩
  simp only [hrecord] at hrun
  rcases hreport : (bench.report (.searchFinished boundary trials.length workload)).runOn u with
    ⟨e | _, v⟩ <;> simp only [hreport] at hrun <;> cases hrun
  · exact .inr ⟨rfl, _, rfl, rfl⟩
  · exact .inr ⟨rfl, _, rfl, rfl⟩

end MemoryLimit
