import Mathlib
import MemoryLimit.Proofs.LimitSearch.Boundary
import MemoryLimit.Proofs.LimitSearch.Runs

/-!
# The trials of an erratic workload

A workload may succeed under a limit and fail under the same one later. The trials of a search close
in on a limit all the same: each of them lies on the side that every one before it left, so the last
success has the smallest limit of all successes. Nothing is asked of what the trials end with.

## Main statements

* `Accounted.made_eq` — the runs of a search are its trials, each with its own limit.
* `bestTrial_limit_eq_last` — the best of such trials is the last success.
* `findLimit_brackets` — the trials of a search, whatever they end with.
-/
namespace MemoryLimit

variable {σ : Type} {bench : Bench σ} {settings : Settings} {Good : Usage → Prop}
  {low high : ℤ} {made : List Attempt} {trials : List Usage}

/-! ## Watched trials -/

/-- A bench that is watched yields the same records. -/
theorem Bench.Yields.observed (h : bench.Yields low high Good) :
    bench.observed.Yields low high Good where
  run := by
    rintro limit ⟨s, made⟩ hlow hhigh
    obtain ⟨usage, t, hrun, hgood⟩ := h.run limit s hlow hhigh
    exact ⟨usage, (t, made ++ [(limit, .ok usage)]), by simp [Bench.observed, hrun], hgood⟩
  limit_eq := by
    rintro limit ⟨s, made⟩ usage ⟨t, runs⟩ hrun
    have hbare : (bench.run limit).runOn s = (.ok usage, t) := by
      rw [bench.observed_mirrors.run limit (s, made), hrun]
    exact h.limit_eq limit s usage t hbare
  report := by
    rintro event ⟨s, made⟩ hevent
    obtain ⟨t, ht⟩ := h.report event s hevent
    exact ⟨(t, made), by rw [Bench.observed, Action.runOn_onFirst, ht]⟩

/-- **The runs of a search are its trials, each under its own limit.** -/
theorem Accounted.made_eq (hbench : bench.Yields low high Good) (h : Accounted bench made trials) :
    made = trials.map fun usage => (usage.limit, .ok usage) := by
  induction made generalizing trials with
  | nil =>
    rw [List.map_eq_nil_iff.1 h.outcomes_eq.symm]
    rfl
  | cons attempt rest ih =>
    obtain ⟨limit, outcome⟩ := attempt
    obtain ⟨usage, others, rfl, houtcome, hothers⟩ := List.map_eq_cons_iff.1 h.outcomes_eq.symm
    obtain ⟨s, t, hrun⟩ := h.made_on (limit, outcome) List.mem_cons_self
    have hlimit : usage.limit = limit := by
      subst houtcome
      exact hbench.limit_eq limit s usage t hrun
    rw [List.map_cons, hlimit, houtcome,
      ih ⟨fun other hother => h.made_on other (List.mem_cons_of_mem _ hother), hothers.symm⟩]

/-! ## The last success -/

theorem bestTrial_eq_none_iff :
    bestTrial settings trials = none ↔ ∀ usage ∈ trials, settings.succeeded usage = false := by
  refine ⟨fun hnone usage husage => ?_, bestTrial_eq_none⟩
  by_contra hsucceeded
  obtain ⟨best, hbest⟩ :=
    exists_bestTrial ⟨usage.limit, usage, husage, by simpa using hsucceeded, rfl⟩
  rw [hnone] at hbest
  cases hbest

/-- **The best of trials that close in is the last success**, up to another one under the same
limit. -/
theorem bestTrial_limit_eq_last (h : trials.Pairwise settings.Narrows) :
    (bestTrial settings trials).map Usage.limit =
      (trials.filter settings.succeeded).getLast?.map Usage.limit := by
  cases hbest : bestTrial settings trials with
  | none =>
    have hfailed := bestTrial_eq_none_iff.1 hbest
    rw [List.filter_eq_nil_iff.2 fun usage husage => by simp [hfailed usage husage]]
    rfl
  | some best =>
    obtain ⟨hmem, hsucceeded⟩ := bestTrial_mem hbest
    have hfiltered : best ∈ trials.filter settings.succeeded := List.mem_filter.2 ⟨hmem, hsucceeded⟩
    have hne := List.ne_nil_of_mem hfiltered
    obtain ⟨hlast, hok⟩ := List.mem_filter.1 (List.getLast_mem hne)
    have hle : best.limit ≤ ((trials.filter settings.succeeded).getLast hne).limit :=
      (bestTrial_isLeast hbest).2 ⟨_, hlast, hok, rfl⟩
    have hnarrows := (h.filter settings.succeeded).rel_getLast_of_rel_getLast_getLast hfiltered
      (settings.narrows_refl _)
    rw [Settings.Narrows, if_pos hsucceeded] at hnarrows
    rw [List.getLast?_eq_some_getLast hne, Option.map_some, Option.map_some,
      le_antisymm hle hnarrows]

/-! ## Searches -/

/-- Once its trials are made, a search answers unless the best of them cannot be merged. -/
theorem runOn_findLimit_trials {i start : Interval} {history : Option History}
    {workload : Option RawText} {iterations : Option ℤ} {boundary : ℤ} {s t u : σ}
    (hhistory : ∀ h ∈ history, h.Numeric)
    (hsearch : (searchLimit bench settings history i workload
      (iterations.getD settings.iterations)).runOn (s, []) = (.ok (start, boundary), (t, trials)))
    (hreport : (bench.report (.searchFinished boundary trials.length workload)).runOn t =
      (.ok (), u)) :
    ∃ outcome v,
      (findLimit bench settings history i workload iterations).runOn s = (outcome, v) ∧
      (v = t ∨ v = u) ∧
      ((∀ usage ∈ trials, usage.Numeric) →
        ∃ finding recorded, outcome = .ok (finding, recorded)) ∧
      ∀ finding recorded, outcome = .ok (finding, recorded) →
        finding = ⟨boundary, start, trials, bestTrial settings trials⟩ := by
  rcases hrecord : recordBest history workload (bestTrial settings trials) with signal | recorded
  · have hrun : (findLimit bench settings history i workload iterations).runOn s =
        (.error (.signal signal), t) := by
      rw [runOn_findLimit_eq, hsearch]
      simp only [hrecord]
    refine ⟨_, t, hrun, .inl rfl, fun hnumeric => ?_, by rintro _ _ ⟨⟩⟩
    obtain ⟨recorded, hok⟩ := recordBest_ok hhistory workload (bestTrial settings trials)
      fun usage hbest => hnumeric usage (bestTrial_mem hbest).1
    rw [hrecord] at hok
    cases hok
  · refine ⟨_, u, runOn_findLimit hsearch hrecord hreport, .inr rfl, fun _ => ⟨_, _, rfl⟩, ?_⟩
    rintro _ _ ⟨⟩
    rfl

/-- **The trials of a search bracket, whatever they end with.** Between whole numbers of at most `d`
digits and with `n` iterations, `d + n ≤ 59`, a search makes `n + 1` runs at most, all of them
inside the interval, and each one not above a limit that succeeded before it and not below one that
failed. It answers if the seconds that were measured are numbers, as those of every run are
(`collect_eq_ok`). There is a best trial exactly if any succeeded, and its limit is that of the last
success; if none did, the boundary is the upper bound. -/
theorem findLimit_brackets (d n : ℕ) (low high : ℤ) (hlow : 0 ≤ low) (hle : low ≤ high)
    (hhigh : high < 10 ^ d) (hdigits : d + n ≤ 59) (settings : Settings) (bench : Bench σ)
    (hbench : bench.Yields low high fun _ => True) (history : Option History)
    (hhistory : ∀ h ∈ history, h.Numeric) (workload : Option RawText) (iterations : Option ℤ)
    (hiterations : iterations.getD settings.iterations = n) (s : σ) :
    ∃ (i : Interval) (outcome : Except Failure (Finding × Option History)) (t : σ)
        (trials : List Usage),
      Interval.ofFigures (.integer low) (.integer high) = .ok i ∧
      (findLimit bench settings history i workload iterations).runOn s = (outcome, t) ∧
      (findLimit bench.observed settings history i workload iterations).runOn (s, []) =
        (outcome, (t, trials.map fun usage => (usage.limit, .ok usage))) ∧
      trials.length ≤ n + 1 ∧
      (∀ usage ∈ trials, low ≤ usage.limit ∧ usage.limit ≤ high) ∧
      trials.Pairwise settings.Narrows ∧
      ((∀ usage ∈ trials, usage.Numeric) →
        ∃ finding recorded, outcome = .ok (finding, recorded)) ∧
      ∀ finding recorded, outcome = .ok (finding, recorded) →
        finding.trials = trials ∧
        (finding.best = none ↔ ∀ usage ∈ trials, settings.succeeded usage = false) ∧
        finding.best.map Usage.limit =
          (trials.filter settings.succeeded).getLast?.map Usage.limit ∧
        ((∀ usage ∈ trials, settings.succeeded usage = false) → finding.boundary = high) := by
  obtain ⟨i, hi, hgrid, hil, hih⟩ := Interval.ofFigures_grid hlow hle hhigh
  obtain ⟨start, early, k, j, asked, ⟨t, made⟩, hsearch, -, -, hsearched, htraced, hk, -,
    ⟨u, last⟩, hreport⟩ :=
    runOn_searchLimit_traced settings history workload hbench.observed hgrid hdigits
      (by rw [hil]; exact_mod_cast hlow) hil hih (s, [])
  have hmade : made = (early ++ asked).map fun usage => (usage.limit, .ok usage) :=
    ((keepsOr_searchLimit bench settings history i workload n ((s, []), []) ⟨by simp, rfl⟩).1 _ _
      hsearch).made_eq hbench
  obtain rfl : made = last := by
    rw [Bench.observed, Action.runOn_onFirst, Prod.mk.injEq, Prod.mk.injEq] at hreport
    exact hreport.2.2
  rw [← hiterations] at hsearch
  obtain ⟨outcome, ⟨v, runs⟩, hrun, hstate, hanswers, hfinding⟩ :=
    runOn_findLimit_trials hhistory hsearch hreport
  have hruns : runs = made := by rcases hstate with hstate | hstate <;> exact (Prod.mk.inj hstate).2
  rw [hruns, hmade] at hrun
  have hbracketed := hsearched.bracketed
  have hbare : (findLimit bench settings history i workload iterations).runOn s = (outcome, v) := by
    rw [bench.observed_mirrors.findLimit iterations (s, []), hrun]
  refine ⟨i, outcome, v, early ++ asked, hi, hbare, hrun, ?_,
    fun usage husage => ⟨(hbracketed.trials usage husage).1, (hbracketed.trials usage husage).2.1⟩,
    htraced.flanked.narrows, hanswers, ?_⟩
  · have hearly := htraced.early_le
    rw [List.length_append, htraced.length_eq]
    omega
  · intro finding recorded houtcome
    rw [hfinding finding recorded houtcome]
    refine ⟨rfl, bestTrial_eq_none_iff, bestTrial_limit_eq_last htraced.flanked.narrows, ?_⟩
    intro hfailed
    simp only [hbracketed.high_eq_of_failed hfailed, Int.ceil_intCast]

/-- A bench whose runs end with the given exit codes, whatever their limits. -/
def Bench.scripted : Bench (List ℤ) where
  run limit := .ofFun fun codes => (.ok ⟨codes.headD 137, .ofInt 1, .ofInt 2, limit⟩, codes.tail)
  report _ := pure ()

/-- A workload that succeeded under five bytes succeeds under ten, fails under five, succeeds under
seven and fails under six. -/
theorem findLimit_brackets_erratic :
    ∃ (i : Interval) (finding : Finding) (recorded : Option History) (t : List ℤ),
      Interval.ofFigures (.integer 0) (.integer 16) = .ok i ∧
      (findLimit .scripted { successExitCode := 95 }
        (some ⟨[("job", ⟨95, .ofInt 1, .ofInt 2, 5⟩)]⟩) i (some "job") (some 3)).runOn
          [95, 137, 95, 137] = (.ok (finding, recorded), t) ∧
      finding.trials.map Usage.limit = [10, 5, 7, 6] ∧
      finding.trials.Pairwise (Settings.Narrows { successExitCode := 95 }) ∧
      finding.best.map Usage.limit = some 7 := by
  obtain ⟨i, outcome, t, trials, hi, hrun, -, -, -, hnarrows, -, hended⟩ :=
    findLimit_brackets 2 3 0 16 (by decide) (by decide) (by decide) (by decide)
      { successExitCode := 95 } .scripted
      ⟨fun limit codes _ _ => ⟨_, codes.tail, rfl, trivial⟩,
        fun limit codes usage t hrun => by cases hrun; rfl, fun _ codes _ => ⟨codes, rfl⟩⟩
      (some ⟨[("job", ⟨95, .ofInt 1, .ofInt 2, 5⟩)]⟩)
      (by
        rintro h ⟨⟩ entry hentry
        rw [List.mem_singleton.1 hentry]
        exact ⟨.finite _, .finite _⟩)
      (some "job") (some 3) rfl [95, 137, 95, 137]
  have hlimits : ((findLimit .scripted { successExitCode := 95 }
      (some ⟨[("job", ⟨95, .ofInt 1, .ofInt 2, 5⟩)]⟩) ⟨.ofInt 0, .ofInt 16, by decide⟩
      (some "job") (some 3)).runOn [95, 137, 95, 137]).1.map
        (fun answer => (answer.1.trials.map Usage.limit, answer.1.best.map Usage.limit)) =
      .ok ([10, 5, 7, 6], some 7) := by
    decide +kernel
  cases hi
  rw [hrun] at hlimits
  cases outcome with
  | error e => cases hlimits
  | ok answer =>
    obtain ⟨htried, hbest⟩ := Prod.mk.inj (Except.ok.inj hlimits)
    obtain ⟨rfl, -⟩ := hended answer.1 answer.2 rfl
    exact ⟨_, answer.1, answer.2, t, rfl, hrun, htried, hnarrows, hbest⟩

end MemoryLimit
