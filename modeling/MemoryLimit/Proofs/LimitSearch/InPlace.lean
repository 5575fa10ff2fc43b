import Mathlib
import MemoryLimit.Program
import MemoryLimit.Proofs.LimitSearch.Boundary
import MemoryLimit.Proofs.LimitSearch.Runs
import MemoryLimit.Proofs.Usage.Saving

/-!
# A search changes one record or nothing

A search reads the history before the first trial and merges the best trial into it after the last
one, so a search that fails leaves the history as it was, whatever failed. The one exception is the
report of the end, which comes after the history is changed. A search that ends has changed the record
of its workload at most, and to the larger one of those that were recorded and found.

## Main definitions

* `History.Records` — what the best trial of a search changes.
* `Finding.Recorded` — the runs of a search are its trials, and the best of them is recorded.

## Main statements

* `recordBest_records` — the best trial is merged under the name of the workload.
* `findLimitInPlace_all_or_nothing` — what a search leaves of a history, however it ends.
* `findLimitInPlace_not_all_or_nothing` — an empty name is none, and the last report may fail.
-/
namespace MemoryLimit

variable {σ : Type} {settings : Settings} {i : Interval} {workload : Option RawText}
  {best : Option Usage}

/-! ## The best trial is recorded -/

/-- What the best trial of a search changes in a history. A workload has a name if one is given that
is not empty. -/
structure History.Records (h : History) (workload : Option RawText) (best : Option Usage)
    (g : History) : Prop where
  /-- Other workloads keep their records. -/
  others : ∀ id, workload ≠ some id → g.get? id = h.get? id
  /-- Without a name, or without a success, nothing changes. -/
  nothing : historyKey? workload = none ∨ best = none → g = h
  /-- A workload without a record gets one. -/
  first : ∀ id usage, historyKey? workload = some id → best = some usage → h.get? id = none →
    g.get? id = some usage
  /-- A workload with a record has the larger one afterwards. -/
  larger : ∀ id usage old, historyKey? workload = some id → best = some usage →
    h.get? id = some old → ∃ kept, g.get? id = some kept ∧ old.larger usage = .ok kept ∧
      (usage.Numeric → Usage.IsLargest {old, usage} kept)

theorem History.Records.refl (h : History) (hnothing : historyKey? workload = none ∨ best = none) :
    h.Records workload best h where
  others _ _ := rfl
  nothing _ := rfl
  first _ _ hid hbest := by simp [hid, hbest] at hnothing
  larger _ _ _ hid hbest := by simp [hid, hbest] at hnothing

/-- A record that is merged changes that of its workload. -/
theorem History.records_of_merge {g h : History} (hh : h.Numeric) {id : RawText} {usage : Usage}
    (hid : historyKey? workload = some id) (hmerge : h.merge id usage = .ok g) :
    h.Records workload (some usage) g := by
  obtain ⟨kept, hkept, rfl⟩ := merge_eq_ok hmerge
  have hworkload : workload = some id := (Option.filter_eq_some_iff.1 hid).1
  have hput : (h.put id kept).get? id = some kept := by rw [get?_put, if_pos rfl]
  constructor
  · intro other hother
    rw [get?_put, if_neg]
    rintro rfl
    exact hother hworkload
  · rintro (hnone | hnone)
    · rw [hid] at hnone
      cases hnone
    · cases hnone
  · intro id' usage' hid' husage' hnone
    rw [hid] at hid'
    cases hid'
    cases husage'
    rw [mergedWith, hnone] at hkept
    cases hkept
    exact hput
  · intro id' usage' old hid' husage' hold
    rw [hid] at hid'
    cases hid'
    cases husage'
    simp only [mergedWith, hold] at hkept
    refine ⟨kept, hput, hkept, fun hu => ?_⟩
    obtain ⟨kept', hkept', hlargest⟩ := Usage.larger_spec (hh.get? hold) hu
    rw [hkept] at hkept'
    cases hkept'
    exact hlargest

/-- A best trial is not recorded, or it is merged under the name of the workload. -/
theorem recordBest_cases {h : History} {recorded : Option History}
    (hrecord : recordBest (some h) workload best = .ok recorded) :
    recorded = some h ∧ (historyKey? workload = none ∨ best = none) ∨
      ∃ id usage g, historyKey? workload = some id ∧ best = some usage ∧
        h.merge id usage = .ok g ∧ recorded = some g := by
  cases hid : historyKey? workload with
  | none =>
    simp only [recordBest, hid] at hrecord
    cases hrecord
    exact .inl ⟨rfl, .inl rfl⟩
  | some id =>
    cases best with
    | none =>
      simp only [recordBest, hid] at hrecord
      cases hrecord
      exact .inl ⟨rfl, .inr rfl⟩
    | some usage =>
      simp only [recordBest, hid] at hrecord
      cases hmerge : h.merge id usage with
      | error signal =>
        rw [hmerge] at hrecord
        cases hrecord
      | ok g =>
        rw [hmerge] at hrecord
        cases hrecord
        exact .inr ⟨id, usage, g, rfl, rfl, hmerge, rfl⟩

/-- **The best trial is merged under the name of the workload.** -/
theorem recordBest_records {history recorded : Option History} (hh : ∀ h ∈ history, h.Numeric)
    (hrecord : recordBest history workload best = .ok recorded) :
    (history = none → recorded = none) ∧
      ∀ h, history = some h → ∃ g, recorded = some g ∧ h.Records workload best g := by
  cases history with
  | none =>
    cases hrecord
    exact ⟨fun _ => rfl, by rintro _ ⟨⟩⟩
  | some h =>
    refine ⟨by rintro ⟨⟩, ?_⟩
    rintro _ ⟨⟩
    rcases recordBest_cases hrecord with ⟨rfl, hnothing⟩ | ⟨id, usage, g, hid, rfl, hmerge, rfl⟩
    · exact ⟨h, rfl, .refl h hnothing⟩
    · exact ⟨g, rfl, History.records_of_merge (hh h rfl) hid hmerge⟩

/-- A sound history stays so when an exact best trial is recorded. -/
theorem History.Sound.recordBest {h : History} {recorded : Option History} (hh : h.Sound)
    (hbest : ∀ usage ∈ best, usage.Exact)
    (hrecord : MemoryLimit.recordBest (some h) workload best = .ok recorded) :
    ∃ g, recorded = some g ∧ g.Sound := by
  rcases recordBest_cases hrecord with ⟨rfl, -⟩ | ⟨id, usage, g, -, rfl, hmerge, rfl⟩
  · exact ⟨h, rfl, hh⟩
  · exact ⟨g, rfl, hh.merge (hbest usage rfl) hmerge⟩

/-! ## Searches -/

/-- What a search has done when its best trial is merged: the runs that were made are the trials of
what it found, and the best of them alone changed the history. -/
structure Finding.Recorded (finding : Finding) (settings : Settings) (workload : Option RawText)
    (made : List Attempt) (history held : Option History) : Prop where
  outcomes_eq : made.map Prod.snd = finding.trials.map .ok
  best_eq : finding.best = bestTrial settings finding.trials
  held_eq_none : history = none → held = none
  records : ∀ h, history = some h → ∃ g, held = some g ∧ h.Records workload finding.best g

/-- **A search changes one record or nothing.** A search is watched, on a bench that may do
anything, and with a history whose figures are numbers. A run that fails is the last one, the search
fails as it did, and the history is as it was. However else a search fails, the history is as it was,
unless it is the report of the end that fails: then the best trial has been recorded. A search that
ends keeps the records of all its runs, and its best trial alone changes the history. A search that is
not watched does the same, and answers with the history that is left. -/
theorem findLimitInPlace_all_or_nothing (settings : Settings) (bench : Bench σ)
    (history : Option History) (hhistory : ∀ h ∈ history, h.Numeric) (i : Interval)
    (workload : Option RawText) (iterations : Option ℤ) (s : σ) :
    ∃ (outcome : Except Failure Finding) (t : σ) (made : List Attempt) (held : Option History),
      (findLimitInPlace bench.observed settings i workload iterations).runOn ((s, []), history) =
        (outcome, ((t, made), held)) ∧
      (findLimit bench settings history i workload iterations).runOn s =
        (outcome.map (·, held), t) ∧
      (∀ k limit failure, made[k]? = some (limit, .error failure) →
        outcome = .error failure ∧ made.length = k + 1 ∧ held = history) ∧
      (∀ failure, outcome = .error failure → held = history ∨
        ∃ (finding : Finding) (u : σ), finding.Recorded settings workload made history held ∧
          (bench.report (.searchFinished finding.boundary finding.trials.length workload)).runOn u =
            (.error failure, t)) ∧
      ∀ finding, outcome = .ok finding →
        finding.Recorded settings workload made history held := by
  obtain ⟨⟨outcome, ⟨t, made⟩, held⟩, hrun⟩ : ∃ result,
    (findLimitInPlace bench.observed settings i workload iterations).runOn ((s, []), history) =
      result := ⟨_, rfl⟩
  have hbare : (findLimit bench settings history i workload iterations).runOn s =
      (outcome.map (·, held), t) := by
    rw [bench.observed_mirrors.findLimit iterations (s, []), findLimit, Action.runOn_withSecond, hrun]
  refine ⟨outcome, t, made, held, hrun, hbare, ?_⟩
  have hkeeps := keepsOr_searchLimit bench settings history i workload
    (iterations.getD settings.iterations) ((s, []), []) ⟨by simp, rfl⟩
  rcases findLimitInPlace_cases hrun with
    ⟨e, rfl, rfl, trials, hsearch⟩ | ⟨start, boundary, ⟨u, runs⟩, trials, hsearch, hended⟩
  · refine ⟨fun k limit failure hfailed => ?_, fun _ _ => .inl rfl, by rintro _ ⟨⟩⟩
    obtain ⟨rfl, hlast⟩ := hkeeps.2 e _ hsearch k limit failure hfailed
    exact ⟨rfl, hlast, rfl⟩
  have haccounted : Accounted bench runs trials := hkeeps.1 _ _ hsearch
  rcases hended with ⟨signal, rfl, hsame, rfl⟩ | ⟨hrecord, reported, hreport, rfl⟩
  · obtain ⟨-, rfl⟩ := Prod.mk.inj hsame
    exact ⟨fun _ _ _ hfailed => absurd hfailed haccounted.ne_error, fun _ _ => .inl rfl,
      by rintro _ ⟨⟩⟩
  · rw [Bench.observed, Action.runOn_onFirst, Prod.mk.injEq, Prod.mk.injEq] at hreport
    obtain ⟨hreported, rfl, rfl⟩ := hreport
    obtain ⟨hnone, hsome⟩ := recordBest_records hhistory hrecord
    have hrecorded : Finding.Recorded ⟨boundary, start, trials, bestTrial settings trials⟩ settings
        workload runs history held := ⟨haccounted.outcomes_eq, rfl, hnone, hsome⟩
    refine ⟨fun _ _ _ hfailed => absurd hfailed haccounted.ne_error, fun failure hfailure => ?_,
      fun finding hfinding => ?_⟩
    · refine .inr ⟨_, u, hrecorded, Prod.ext ?_ rfl⟩
      cases reported with
      | ok _ => cases hfailure
      | error e =>
        cases hfailure
        exact hreported
    · cases reported with
      | error _ => cases hfinding
      | ok _ =>
        cases hfinding
        exact hrecorded

/-- A bench on which the runs before the one of the given index succeed, and that one fails. -/
def Bench.breaking (index : ℕ) (failure : Failure) : Bench ℕ where
  run limit := .ofFun fun made =>
    (if made = index then .error failure else .ok ⟨95, .ofInt 1, .ofInt 2, limit⟩, made + 1)
  report _ := pure ()

/-- The recorded limit of one byte still holds at two bytes, and then no group can be made. The
search fails for that, after two runs, and the record stays. -/
theorem findLimitInPlace_all_or_nothing_of_failed_run :
    ∃ (history : History) (t : ℕ) (made : List Attempt),
      history.get? "job" = some ⟨95, .ofInt 1, .ofInt 2, 1⟩ ∧
      (findLimitInPlace (Bench.breaking 1 (.unavailable (.reported "no group"))).observed
        { successExitCode := 95 } ⟨.ofInt 0, .ofInt 4, by decide⟩ (some "job") (some 2)).runOn
          ((0, []), some history) =
        (.error (.unavailable (.reported "no group")), ((t, made), some history)) ∧
      made.length = 2 := by
  have hhistory : ∀ h ∈ some (⟨[("job", ⟨95, .ofInt 1, .ofInt 2, 1⟩)]⟩ : History), h.Numeric := by
    rintro _ ⟨⟩ entry hentry
    rw [List.mem_singleton.1 hentry]
    exact ⟨.finite _, .finite _⟩
  obtain ⟨outcome, t, made, held, hrun, -, hfailed, -, -⟩ :=
    findLimitInPlace_all_or_nothing { successExitCode := 95 }
      (Bench.breaking 1 (.unavailable (.reported "no group"))) _ hhistory
      ⟨.ofInt 0, .ofInt 4, by decide⟩ (some "job") (some 2) 0
  have hmade : made = ((findLimitInPlace
      (Bench.breaking 1 (.unavailable (.reported "no group"))).observed
      { successExitCode := 95 } ⟨.ofInt 0, .ofInt 4, by decide⟩ (some "job") (some 2)).runOn
        ((0, []), some ⟨[("job", ⟨95, .ofInt 1, .ofInt 2, 1⟩)]⟩)).2.1.2 := by rw [hrun]
  obtain ⟨rfl, hlength, rfl⟩ :=
    hfailed 1 1 (.unavailable (.reported "no group")) (by rw [hmade]; rfl)
  exact ⟨_, t, made, rfl, hrun, hlength⟩

/-- The bench of the program, for a command that succeeds under every limit. -/
def Bench.succeeding : Bench (Host × Unit) :=
  Program.bench (fun _ _ limit => pure ⟨95, .ofInt 1, .ofInt 2, limit⟩) { successExitCode := 95 }
    { words := ["true"] }

/-- An interval whose middle has one digit more than numerals have. -/
def Interval.farReaching : Interval :=
  ⟨.ofInt 0, .ofInt (10 ^ (maxNumeralDigits + 1)), by decide +kernel⟩

/-- The best trial of a workload with an empty name is recorded nowhere, and a search whose boundary is
too long for the report of its end fails although it has recorded its best trial. -/
theorem findLimitInPlace_not_all_or_nothing :
    (∃ finding t, (findLimitInPlace (Bench.needing 2) { successExitCode := 95 }
        ⟨.ofInt 0, .ofInt 4, by decide⟩ (some "") (some 1)).runOn ((), some {}) =
          (.ok finding, (t, some {})) ∧
      finding.best = some ⟨95, .ofInt 1, .ofInt 2, 2⟩) ∧
    ∃ failure t held, (findLimitInPlace Bench.succeeding { successExitCode := 95 } .farReaching
        (some "job") (some 1)).runOn (({}, ()), some {}) = (.error failure, (t, some held)) ∧
      (held.get? "job").isSome = true := by
  refine ⟨⟨_, _, rfl, by decide +kernel⟩, ?_⟩
  have hfailed : ((findLimitInPlace Bench.succeeding { successExitCode := 95 } .farReaching
      (some "job") (some 1)).runOn (({}, ()), some {})).1.isOk = false := by decide +kernel
  have hrecorded : (((findLimitInPlace Bench.succeeding { successExitCode := 95 } .farReaching
      (some "job") (some 1)).runOn (({}, ()), some {})).2.2.bind (·.get? "job")).isSome = true := by
    decide +kernel
  -- from here on the run is not to be evaluated
  generalize (findLimitInPlace Bench.succeeding { successExitCode := 95 } .farReaching (some "job")
    (some 1)).runOn (({}, ()), some {}) = ended at hfailed hrecorded
  obtain ⟨_ | _, t, _ | held⟩ := ended
  · cases hrecorded
  · exact ⟨_, t, held, rfl, hrecorded⟩
  · cases hfailed
  · cases hfailed

end MemoryLimit
