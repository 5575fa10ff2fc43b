import Mathlib
import MemoryLimit.Proofs.LimitSearch.Bracket
import MemoryLimit.Proofs.LimitSearch.Runs
import MemoryLimit.Proofs.Usage.Order

/-!
# The boundary of a workload is found

A workload that needs a certain limit succeeds under that limit and all larger ones, and fails
under all smaller ones. A search finds what it needs, up to the width that its iterations leave,
whatever the history says of it.

## Main definitions

* `Settings.HasThreshold` — a trial succeeds exactly if its limit is at least what the workload
  needs.

## Main statements

* `Bracketed.lower_lt`, `Bracketed.le_upper` — a bracketed interval has the threshold in it.
* `findLimit_accurate` — the boundary that a search finds.
-/
namespace MemoryLimit

/-- A record of a workload that needs a limit: its run succeeded exactly if its limit was at least
that, and the seconds that were measured are numbers. Those of every run are (`collect_eq_ok`). -/
structure Settings.HasThreshold (settings : Settings) (needs : ℤ) (usage : Usage) : Prop where
  succeeded_iff : settings.succeeded usage = true ↔ needs ≤ usage.limit
  numeric : usage.Numeric

variable {σ : Type} {bench : Bench σ} {settings : Settings} {needs low high : ℤ} {i : Interval}
  {trials : List Usage}

/-! ## Brackets around a threshold -/

/-- What a workload needs is above the lower bound, if it is above the one given. -/
theorem Bracketed.lower_lt (h : Bracketed settings (settings.HasThreshold needs) low high i trials)
    (hlow : low < needs) : i.low.toRat < needs := by
  rcases h.low_eq with hstart | ⟨usage, hmem, hfailed, hlimit⟩
  · rw [hstart]
    exact_mod_cast hlow
  · obtain ⟨-, -, hthreshold⟩ := h.trials usage hmem
    have hbelow := not_le.1 (mt hthreshold.succeeded_iff.2 (by simp [hfailed]))
    rw [hlimit] at hbelow
    exact Int.floor_lt.1 hbelow

/-- What a workload needs is not above the upper bound, if it is not above the one given. -/
theorem Bracketed.le_upper (h : Bracketed settings (settings.HasThreshold needs) low high i trials)
    (hhigh : needs ≤ high) : needs ≤ i.high.toRat := by
  rcases h.high_eq with hstart | ⟨usage, hmem, hsucceeded, hlimit⟩
  · rw [hstart]
    exact_mod_cast hhigh
  · obtain ⟨-, -, hthreshold⟩ := h.trials usage hmem
    have hle := hthreshold.succeeded_iff.1 hsucceeded
    rw [hlimit] at hle
    exact Int.le_floor.1 hle

/-- A workload that needs no more than the lower bound never moves it. -/
theorem Bracketed.lower_eq (h : Bracketed settings (settings.HasThreshold needs) low high i trials)
    (hlow : needs ≤ low) : i.low.toRat = low := by
  rcases h.low_eq with hstart | ⟨usage, hmem, hfailed, -⟩
  · exact hstart
  · obtain ⟨hle, -, hthreshold⟩ := h.trials usage hmem
    have := hthreshold.succeeded_iff.2 (hlow.trans hle)
    simp [hfailed] at this

/-- A workload that needs more than the upper bound fails in every trial. -/
theorem Bracketed.failed (h : Bracketed settings (settings.HasThreshold needs) low high i trials)
    (hhigh : high < needs) : ∀ usage ∈ trials, settings.succeeded usage = false := by
  intro usage hmem
  obtain ⟨-, hle, hthreshold⟩ := h.trials usage hmem
  rw [← Bool.not_eq_true, hthreshold.succeeded_iff]
  omega

/-- A workload that needs more than the upper bound never moves it. -/
theorem Bracketed.upper_eq (h : Bracketed settings (settings.HasThreshold needs) low high i trials)
    (hhigh : high < needs) : i.high.toRat = high :=
  h.high_eq_of_failed (h.failed hhigh)

/-! ## The best trial -/

theorem foldl_smaller_mem (first : Usage) (rest : List Usage) :
    rest.foldl smaller first ∈ first :: rest := by
  induction rest generalizing first with
  | nil => simp
  | cons second rest ih =>
    have hsmaller : smaller first second = first ∨ smaller first second = second := by
      rw [smaller]
      split
      · exact .inr rfl
      · exact .inl rfl
    rw [List.foldl_cons]
    rcases List.mem_cons.1 (ih (smaller first second)) with hhead | htail
    · rw [hhead]
      rcases hsmaller with heq | heq <;> simp [heq]
    · exact List.mem_cons_of_mem _ (List.mem_cons_of_mem _ htail)

/-- The best trial is one that was made, and it succeeded. -/
theorem bestTrial_mem {usage : Usage} (h : bestTrial settings trials = some usage) :
    usage ∈ trials ∧ settings.succeeded usage = true := by
  rw [bestTrial] at h
  split at h
  · cases h
  · rename_i first rest hfilter
    cases h
    exact List.mem_filter.1 (hfilter ▸ foldl_smaller_mem first rest)

/-- There is no best trial if none succeeded. -/
theorem bestTrial_eq_none (h : ∀ usage ∈ trials, settings.succeeded usage = false) :
    bestTrial settings trials = none := by
  rw [bestTrial, List.filter_eq_nil_iff.2 (fun usage hmem => by simp [h usage hmem])]

/-- The best trial can be recorded where all figures are numbers. -/
theorem recordBest_ok {history : Option History} (hhistory : ∀ h ∈ history, h.Numeric)
    (workload : Option RawText) (best : Option Usage) (hbest : ∀ usage ∈ best, usage.Numeric) :
    ∃ recorded, recordBest history workload best = .ok recorded := by
  unfold recordBest
  split
  · rename_i h id usage _
    obtain ⟨merged, hmerged⟩ := History.merge_ok (hhistory h rfl) id (hbest usage rfl)
    exact ⟨some merged, by rw [hmerged]; rfl⟩
  · exact ⟨_, rfl⟩

/-! ## Searches -/

/-- **A search is accurate for every workload with a threshold, whatever the history says.**
Between whole numbers of at most `d` digits and with `n` iterations, `d + n ≤ 59`, it never
fails. What the workload needs is found up to the `2 ^ n`-th part of the width and one byte, if
it lies in the interval; a workload that needs more leaves the upper bound, and no best trial;
one that needs no more than the lower bound leads there. -/
theorem findLimit_accurate (d n : ℕ) (low high needs : ℤ) (hlow : 0 ≤ low) (hle : low ≤ high)
    (hhigh : high < 10 ^ d) (hdigits : d + n ≤ 59) (settings : Settings) (bench : Bench σ)
    (hbench : bench.Yields low high (settings.HasThreshold needs)) (history : Option History)
    (hhistory : ∀ h ∈ history, h.Numeric) (workload : Option RawText) (iterations : Option ℤ)
    (hiterations : iterations.getD settings.iterations = n) (s : σ) :
    ∃ (i : Interval) (finding : Finding) (recorded : Option History) (t : σ),
      Interval.ofFigures (.integer low) (.integer high) = .ok i ∧
      (findLimit bench settings history i workload iterations).runOn s =
        (.ok (finding, recorded), t) ∧
      (low < needs → needs ≤ high → needs ≤ finding.boundary ∧
        (finding.boundary : ℚ) < needs + (high - low) / 2 ^ n + 1) ∧
      (high < needs → finding.boundary = high ∧ finding.best = none) ∧
      (needs ≤ low → low ≤ finding.boundary ∧
        (finding.boundary : ℚ) < low + (high - low) / 2 ^ n + 1) := by
  obtain ⟨i, hi, hil, hih⟩ := Interval.ofFigures_integer hle
  have hlowlt : |low| < 10 ^ d := abs_lt.2 ⟨by linarith, by linarith⟩
  have hhighlt : |high| < 10 ^ d := abs_lt.2 ⟨by linarith, by linarith⟩
  have hil' : i.low.toRat = low := by rw [hil, Number.toRat_ofInt]
  have hih' : i.high.toRat = high := by rw [hih, Number.toRat_ofInt]
  obtain ⟨start, j, t, trials, hrun, hbracketed, hwidth, u, hreport⟩ :=
    runOn_searchLimit history workload hbench
      ⟨hil ▸ Number.onGrid_ofInt hlowlt, hih ▸ Number.onGrid_ofInt hhighlt⟩ hdigits
      (by rw [hil']; exact_mod_cast hlow) hil' hih' s
  obtain ⟨recorded, hrecorded⟩ := recordBest_ok hhistory workload (bestTrial settings trials)
    (fun usage hbest => (hbracketed.trials usage (bestTrial_mem hbest).1).2.2.numeric)
  rw [← hiterations] at hrun
  refine ⟨i, ⟨⌈j.high.toRat⌉, start, trials, bestTrial settings trials⟩, recorded, u, hi,
    runOn_findLimit hrun hrecorded hreport, ?_, ?_, ?_⟩
  · intro hlt hneeds
    have habove := hbracketed.le_upper hneeds
    have hbelow := hbracketed.lower_lt hlt
    refine ⟨?_, ?_⟩
    · exact_mod_cast habove.trans (Int.le_ceil j.high.toRat)
    · have := Int.ceil_lt_add_one j.high.toRat
      simp only
      linarith
  · intro hneeds
    refine ⟨?_, bestTrial_eq_none (hbracketed.failed hneeds)⟩
    simp only [hbracketed.upper_eq hneeds, Int.ceil_intCast]
  · intro hneeds
    have hstays := hbracketed.lower_eq hneeds
    have hordered := j.toRat_le
    refine ⟨?_, ?_⟩
    · exact_mod_cast (hstays ▸ hordered).trans (Int.le_ceil j.high.toRat)
    · have := Int.ceil_lt_add_one j.high.toRat
      simp only
      linarith

/-- A workload that needs three bytes, and was last known to need five, is found between `0` and
`16`. -/
theorem findLimit_accurate_three :
    ∃ (i : Interval) (finding : Finding) (recorded : Option History),
      Interval.ofFigures (.integer 0) (.integer 16) = .ok i ∧
      (findLimit (σ := Unit)
        ⟨fun limit => pure ⟨if 3 ≤ limit then 95 else 137, .ofInt 1, .ofInt 2, limit⟩, fun _ => pure ()⟩
        { successExitCode := 95 } (some ⟨[("w", ⟨95, .ofInt 1, .ofInt 2, 5⟩)]⟩) i (some "w")
        (some 4)).runOn () = (.ok (finding, recorded), ()) ∧
      3 ≤ finding.boundary ∧ finding.boundary < 5 := by
  obtain ⟨i, finding, recorded, t, hi, hrun, hboundary, -, -⟩ :=
    findLimit_accurate (σ := Unit) 2 4 0 16 3 (by decide) (by decide) (by decide) (by decide)
      { successExitCode := 95 }
      ⟨fun limit => pure ⟨if 3 ≤ limit then 95 else 137, .ofInt 1, .ofInt 2, limit⟩, fun _ => pure ()⟩
      ⟨fun limit s _ _ => ⟨_, s, rfl, by
          by_cases h : 3 ≤ limit <;> simp [Settings.succeeded, h], ⟨.finite _, .finite _⟩⟩,
        fun limit s usage t hrun => by cases hrun; rfl, fun _ s _ => ⟨s, rfl⟩⟩
      (some ⟨[("w", ⟨95, .ofInt 1, .ofInt 2, 5⟩)]⟩)
      (by
        rintro h ⟨⟩ entry hentry
        rw [List.mem_singleton.1 hentry]
        exact ⟨.finite _, .finite _⟩)
      (some "w") (some 4) rfl ()
  obtain ⟨hle, hlt⟩ := hboundary (by decide) (by decide)
  have hlt' : (finding.boundary : ℚ) < 5 := hlt.trans_eq (by norm_num)
  exact ⟨i, finding, recorded, hi, hrun, hle, by exact_mod_cast hlt'⟩

end MemoryLimit
