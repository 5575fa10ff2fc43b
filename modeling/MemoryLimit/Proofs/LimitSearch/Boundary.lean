import Mathlib
import MemoryLimit.Proofs.LimitSearch.Accuracy

/-!
# The boundary and the best trial

The boundary that a search reports and the limit of its best trial are roundings of one point, the
upper bound that the trials leave. The boundary is that point cut upwards to whole bytes; the trial at
the point ran under the whole bytes below it. So both agree exactly if the point is whole, and
otherwise the boundary is one byte more. Outcomes decide where the point lies, but it is whole for
all of them if every halving of the interval is one in whole bytes.

## Main definitions

* `successes` — the limits at which a trial succeeded.
* `Bench.needing` — a bench with a workload that needs a limit.

## Main statements

* `bestTrial_isLeast` — the best trial has the least of them.
* `Traced.best_limit_eq` — it is the upper bound that is left, cut downwards.
* `findLimit_rounds_point` — the two figures of a search.
-/
namespace MemoryLimit

variable {σ : Type} {bench : Bench σ} {settings : Settings} {Good : Usage → Prop} {low high : ℤ}
  {start i : Interval} {early asked trials : List Usage} {best : Usage} {k : ℕ}

/-- The limits at which a trial succeeded. -/
def successes (settings : Settings) (trials : List Usage) : Set ℤ :=
  {limit | ∃ usage ∈ trials, settings.succeeded usage = true ∧ usage.limit = limit}

/-! ## The least success -/

theorem smaller_limit (x y : Usage) : (smaller x y).limit = min x.limit y.limit := by
  rw [smaller]
  split <;> omega

/-- No record has a smaller limit than the one that is kept. -/
theorem foldl_smaller_le (first : Usage) (rest : List Usage) :
    ∀ usage ∈ first :: rest, (rest.foldl smaller first).limit ≤ usage.limit := by
  induction rest generalizing first with
  | nil => simp
  | cons second rest ih =>
    have hkept : (rest.foldl smaller (smaller first second)).limit ≤
        min first.limit second.limit := by
      rw [← smaller_limit]
      exact ih (smaller first second) _ List.mem_cons_self
    intro usage hmem
    rw [List.foldl_cons]
    rcases List.mem_cons.1 hmem with rfl | hmem
    · exact hkept.trans (min_le_left _ _)
    · rcases List.mem_cons.1 hmem with rfl | hmem
      · exact hkept.trans (min_le_right _ _)
      · exact ih (smaller first second) usage (List.mem_cons_of_mem _ hmem)

/-- **The best trial has the least limit at which one succeeded.** -/
theorem bestTrial_isLeast (h : bestTrial settings trials = some best) :
    IsLeast (successes settings trials) best.limit := by
  obtain ⟨hmem, hsucceeded⟩ := bestTrial_mem h
  refine ⟨⟨best, hmem, hsucceeded, rfl⟩, ?_⟩
  rintro limit ⟨usage, husage, hok, rfl⟩
  have hfiltered : usage ∈ trials.filter settings.succeeded := List.mem_filter.2 ⟨husage, hok⟩
  rw [bestTrial] at h
  split at h
  · cases h
  · rename_i first rest hfilter
    cases h
    rw [hfilter] at hfiltered
    exact foldl_smaller_le first rest usage hfiltered

/-- There is a best trial if any succeeded. -/
theorem exists_bestTrial (h : (successes settings trials).Nonempty) :
    ∃ best, bestTrial settings trials = some best := by
  obtain ⟨limit, usage, husage, hok, -⟩ := h
  have hfiltered : usage ∈ trials.filter settings.succeeded := List.mem_filter.2 ⟨husage, hok⟩
  rw [bestTrial]
  split
  · rename_i hfilter
    rw [hfilter] at hfiltered
    cases hfiltered
  · exact ⟨_, rfl⟩

/-! ## Two roundings of one point -/

/-- **The best trial ran under the upper bound that is left, cut downwards to whole bytes**: that is
the last success, and none was below it. -/
theorem Traced.best_limit_eq (h : Traced settings start early k i asked)
    (hbracketed : Bracketed settings Good low high i (early ++ asked))
    (hbest : bestTrial settings (early ++ asked) = some best) : best.limit = ⌊i.high.toRat⌋ := by
  obtain ⟨hmem, hsucceeded⟩ := bestTrial_mem hbest
  apply le_antisymm
  · rcases hbracketed.high_eq with hstays | ⟨usage, husage, hok, hlimit⟩
    · rw [hstays, Int.floor_intCast]
      exact (hbracketed.trials best hmem).2.1
    · rw [← hlimit]
      exact (bestTrial_isLeast hbest).2 ⟨usage, husage, hok, rfl⟩
  · exact h.flanked.high_le best hmem hsucceeded

/-- Both roundings of a number agree exactly if it is whole. -/
theorem ceil_eq_floor_iff {x : ℚ} : ⌈x⌉ = ⌊x⌋ ↔ ∃ a : ℤ, x = a := by
  constructor
  · intro h
    have hle := Int.le_ceil x
    rw [h] at hle
    exact ⟨⌊x⌋, le_antisymm hle (Int.floor_le x)⟩
  · rintro ⟨a, rfl⟩
    rw [Int.ceil_intCast, Int.floor_intCast]

/-! ## Searches -/

/-- **The boundary and the best trial are roundings of one point**, the upper bound that the trials
leave of the interval that was searched. Between whole numbers of at most `d` digits and with `n`
iterations, `d + n ≤ 59`, a search never fails, whatever its trials end with and whatever the
history says; the seconds that were measured are numbers, as those of every run are
(`collect_eq_ok`). If a trial succeeded, the best one has the least limit at which one did; the
boundary is that limit or the next byte, and is that limit exactly if the point is whole. So it
always is if the width of the interval is a multiple of `2 ^ n`. -/
theorem findLimit_rounds_point (d n : ℕ) (low high : ℤ) (hlow : 0 ≤ low) (hle : low ≤ high)
    (hhigh : high < 10 ^ d) (hdigits : d + n ≤ 59) (settings : Settings) (bench : Bench σ)
    (hbench : bench.Yields low high Usage.Numeric) (history : Option History)
    (hhistory : ∀ h ∈ history, h.Numeric) (workload : Option RawText) (iterations : Option ℤ)
    (hiterations : iterations.getD settings.iterations = n) (s : σ) :
    ∃ (i : Interval) (finding : Finding) (recorded : Option History) (t : σ) (asked : List Usage)
        (point : ℚ),
      Interval.ofFigures (.integer low) (.integer high) = .ok i ∧
      (findLimit bench settings history i workload iterations).runOn s =
        (.ok (finding, recorded), t) ∧
      asked <:+ finding.trials ∧
      (finding.interval.low.toRat < finding.interval.high.toRat → asked.length = n) ∧
      point = (Halving.bounds (finding.interval.low.toRat, finding.interval.high.toRat)
        (asked.map settings.succeeded)).2 ∧
      finding.boundary = ⌈point⌉ ∧
      ((successes settings finding.trials).Nonempty → ∃ best,
        finding.best = some best ∧
        IsLeast (successes settings finding.trials) best.limit ∧
        best.limit = ⌊point⌋ ∧
        best.limit ≤ finding.boundary ∧ finding.boundary ≤ best.limit + 1 ∧
        (finding.boundary = best.limit ↔ ∃ a : ℤ, point = a) ∧
        ((∃ width : ℤ, finding.interval.high.toRat - finding.interval.low.toRat = width * 2 ^ n) →
          finding.boundary = best.limit)) := by
  obtain ⟨i, hi, hil, hih⟩ := Interval.ofFigures_integer hle
  have hlowlt : |low| < 10 ^ d := abs_lt.2 ⟨by linarith, by linarith⟩
  have hhighlt : |high| < 10 ^ d := abs_lt.2 ⟨by linarith, by linarith⟩
  have hil' : i.low.toRat = low := by rw [hil, Number.toRat_ofInt]
  have hih' : i.high.toRat = high := by rw [hih, Number.toRat_ofInt]
  obtain ⟨start, early, k, j, asked, t, hrun, hgrid, -, hsearched, htraced, hk, hall, u, hreport⟩ :=
    runOn_searchLimit_traced settings history workload hbench
      ⟨hil ▸ Number.onGrid_ofInt hlowlt, hih ▸ Number.onGrid_ofInt hhighlt⟩ hdigits
      (by rw [hil']; exact_mod_cast hlow) hil' hih' s
  have hbracketed := hsearched.bracketed
  obtain ⟨recorded, hrecorded⟩ := recordBest_ok hhistory workload
    (bestTrial settings (early ++ asked))
    (fun usage hbest => (hbracketed.trials usage (bestTrial_mem hbest).1).2.2)
  rw [← hiterations] at hrun
  have hpoint : j.high.toRat =
      (Halving.bounds (start.low.toRat, start.high.toRat) (asked.map settings.succeeded)).2 := by
    rw [htraced.bounds_eq]
  refine ⟨i, _, recorded, u, asked, j.high.toRat, hi, runOn_findLimit hrun hrecorded hreport,
    List.suffix_append early asked, fun hlt => by rw [htraced.length_eq, hall hlt], hpoint, rfl,
    ?_⟩
  intro hsuccess
  obtain ⟨best, hbest⟩ := exists_bestTrial hsuccess
  have hfloor := htraced.best_limit_eq hbracketed hbest
  have hwhole : (⌈j.high.toRat⌉ = best.limit ↔ ∃ a : ℤ, j.high.toRat = a) := by
    rw [hfloor, ceil_eq_floor_iff]
  refine ⟨best, hbest, bestTrial_isLeast hbest, hfloor, ?_, ?_, hwhole, ?_⟩
  · rw [hfloor]
    exact Int.floor_le_ceil _
  · rw [hfloor]
    exact Int.ceil_le_floor_add_one _
  · rintro ⟨width, hwidth⟩
    obtain ⟨first, hfirst⟩ := hgrid.low.multiple
    rw [pow_zero, mul_one] at hfirst
    rw [hwhole, hpoint]
    apply Halving.exists_upper_eq_intCast hfirst hwidth
    rw [List.length_map, htraced.length_eq]
    exact hk

/-- A bench on which a workload that needs a limit succeeds, with `95`, under no smaller one. -/
def Bench.needing (needs : ℤ) : Bench Unit where
  run limit := pure ⟨if needs ≤ limit then 95 else 137, .ofInt 1, .ofInt 2, limit⟩
  report _ := pure ()

/-- Between `0` and `4` two halvings leave whole bytes, so the boundary of a workload that needs three
of them is the limit of its best trial. -/
theorem findLimit_rounds_point_four :
    ∃ (i : Interval) (finding : Finding) (best : Usage),
      Interval.ofFigures (.integer 0) (.integer 4) = .ok i ∧
      (findLimit (.needing 3) { successExitCode := 95 } none i none (some 2)).runOn () =
        (.ok (finding, none), ()) ∧
      finding.best = some best ∧ finding.boundary = best.limit ∧
      IsLeast (successes { successExitCode := 95 } finding.trials) best.limit := by
  obtain ⟨i, finding, recorded, t, asked, point, hi, hrun, -, -, -, -, hbest⟩ :=
    findLimit_rounds_point 1 2 0 4 (by decide) (by decide) (by decide) (by decide)
      { successExitCode := 95 } (.needing 3)
      ⟨fun limit s _ _ => ⟨_, s, rfl, .finite _, .finite _⟩, fun limit s usage t hrun => by cases hrun; rfl,
        fun _ s _ => ⟨s, rfl⟩⟩ none (by simp) none (some 2) rfl ()
  have hfound : (findLimit (.needing 3) { successExitCode := 95 } none
      ⟨.ofInt 0, .ofInt 4, by decide⟩ none (some 2)).runOn () =
      (.ok (⟨3, ⟨.ofInt 0, .ofInt 4, by decide⟩, [⟨137, .ofInt 1, .ofInt 2, 2⟩,
        ⟨95, .ofInt 1, .ofInt 2, 3⟩], some ⟨95, .ofInt 1, .ofInt 2, 3⟩⟩, none), ()) := rfl
  cases hi
  obtain ⟨hfinding, -⟩ := Prod.mk.inj (hfound.symm.trans hrun)
  cases hfinding
  obtain ⟨best, hsome, hleast, -, -, -, -, hwhole⟩ :=
    hbest ⟨3, ⟨95, .ofInt 1, .ofInt 2, 3⟩, by simp, rfl, rfl⟩
  have hwidth : (Number.ofInt 4).toRat - (Number.ofInt 0).toRat = (1 : ℤ) * 2 ^ 2 := by
    rw [Number.toRat_ofInt, Number.toRat_ofInt]
    norm_num
  exact ⟨_, _, best, rfl, hfound, hsome, hwhole ⟨1, hwidth⟩, hleast⟩

/-- Between `0` and `10` six halvings leave a part of a byte: the workload that needs three bytes
succeeds under three, and the boundary is four. -/
theorem findLimit_boundary_ne_best :
    ((do
      let i ← Interval.ofFigures (.integer 0) (.integer 10)
      let (finding, _) ← findLimit (.needing 3) { successExitCode := 95 } none i none (some 6)
      return (finding.boundary, finding.best.map Usage.limit) : Action Unit (ℤ × Option ℤ)).runOn
        ()).1 = .ok (4, some 3) := by
  decide +kernel

end MemoryLimit
