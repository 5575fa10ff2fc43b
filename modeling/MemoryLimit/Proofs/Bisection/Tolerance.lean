import Mathlib
import MemoryLimit.Proofs.Bisection.Width

/-!
# Searches with a tolerance

A tolerance is looked at twice: before a search it is turned into a number of steps, by halving
the width until it is met, and after each step it is compared with the width that is left. While
the digits suffice the two agree, so a search between whole numbers takes the least number of
steps that meets an absolute tolerance, and its condition holds after the last of them and not
before.

## Main statements

* `StopRule.Checked.halvings_eq` — the number of steps that a tolerance allows is the least one
  that meets it.
* `StopRule.Checked.converged_eq` — the condition of a tolerance compares two values.
* `search_converges` — a search with an absolute tolerance.
-/
namespace MemoryLimit

theorem Number.compare_eq_gt_iff (x y : Number) : x.compare y = .gt ↔ y.toRat < x.toRat := by
  rw [compare_eq, compare_gt_iff_gt]

/-! ## Least numbers of halvings -/

section LeastHalvings

variable {w epsilon : ℚ} {m : ℕ}

/-- A width meets a tolerance after as many halvings as are needed, and after all larger numbers of
them. -/
theorem le_mul_two_pow_iff (hpos : 0 < epsilon) (hm : IsLeast {m : ℕ | w ≤ epsilon * 2 ^ m} m)
    (k : ℕ) : w ≤ epsilon * 2 ^ k ↔ m ≤ k := by
  constructor
  · exact fun hk => hm.2 hk
  · intro hk
    have hpow : (2 : ℚ) ^ m ≤ 2 ^ k := pow_le_pow_right₀ (by norm_num) hk
    exact hm.1.trans (mul_le_mul_of_nonneg_left hpow hpos.le)

/-- Half a width needs one halving less. -/
theorem isLeast_half (hm : IsLeast {m : ℕ | w ≤ epsilon * 2 ^ m} (m + 1)) :
    IsLeast {m : ℕ | w / 2 ≤ epsilon * 2 ^ m} m := by
  have hshift : ∀ k : ℕ, w / 2 ≤ epsilon * 2 ^ k ↔ w ≤ epsilon * 2 ^ (k + 1) := by
    intro k
    rw [div_le_iff₀ two_pos, pow_succ, mul_assoc]
  refine ⟨(hshift m).2 hm.1, fun k hk => ?_⟩
  have := hm.2 ((hshift k).1 hk)
  omega

end LeastHalvings

namespace StopRule

/-- A rule with a positive tolerance and no negative count is one. -/
theorem check_tolerance {epsilon : Number} (hpos : 0 < epsilon.toRat) (relative : Bool)
    (iterations : Option ℕ) :
    check ⟨iterations.map Nat.cast, some (.decimal (.finite epsilon)), relative⟩ =
      .ok ⟨iterations, some (.finite epsilon), relative⟩ := by
  have hgt : epsilon.compare (.ofInt 0) = .gt :=
    (Number.compare_eq_gt_iff _ _).2 (by rwa [Number.toRat_ofInt, Int.cast_zero])
  have hcompare : (Decimal.finite epsilon).compare (.ofInt 0) = .ok .gt := congrArg Except.ok hgt
  cases iterations with
  | none =>
    simp [check, Figure.toDecimal, Signal.raise, Except.mapError, hcompare, bind, Except.bind, pure,
      Except.pure]
  | some n =>
    have hn : ¬ (n : ℤ) < 0 := by omega
    simp [check, Figure.toDecimal, Signal.raise, Except.mapError, hcompare, hn, bind, Except.bind,
      pure, Except.pure]

namespace Checked

/-- **The number of steps that a tolerance allows is the least one that meets it**, while the digits
suffice to halve the width that often. -/
theorem halvings_eq {epsilon : Number} {d k m fuel : ℕ} {x : Number} (hx : x.OnGrid d k)
    (hfits : x.coefficient < 10 ^ 60)
    (hm : IsLeast {m : ℕ | x.toRat ≤ epsilon.toRat * 2 ^ m} m) (hdigits : d + k + m ≤ 60)
    (hfuel : m ≤ fuel) : halvings (.finite epsilon) fuel x = .ok m := by
  induction fuel generalizing x k m with
  | zero =>
    obtain rfl : m = 0 := by omega
    rfl
  | succ fuel ih =>
    have hcompare : (Decimal.finite x).compare (.finite epsilon) = .ok (x.compare epsilon) := rfl
    rw [halvings, hcompare]
    cases m with
    | zero =>
      have hle : x.toRat ≤ epsilon.toRat := by simpa using hm.1
      have hne := (not_congr (Number.compare_eq_gt_iff x epsilon)).2 (not_lt.2 hle)
      cases h : x.compare epsilon with
      | gt => exact absurd h hne
      | lt => rfl
      | eq => rfl
    | succ m =>
      have hgt : epsilon.toRat < x.toRat := by
        by_contra hle
        have := hm.2 (show x.toRat ≤ epsilon.toRat * 2 ^ 0 by simpa using hle)
        omega
      obtain ⟨r, hr, hhalf, hgrid, hrfits⟩ := hx.half hfits (by omega)
      rw [(Number.compare_eq_gt_iff _ _).2 hgt, hr]
      change (do return (← halvings (.finite epsilon) fuel r) + 1) = Except.ok (m + 1)
      rw [ih hgrid hrfits (hhalf ▸ isLeast_half hm) (by omega) (by omega)]
      rfl

/-- The condition of a tolerance compares the width with the width that is allowed. -/
theorem converged_eq {rule : Checked} {i : Interval} {tolerance : Decimal} {allowed w : Number}
    (htolerance : rule.tolerance = some tolerance)
    (hallowed : rule.allowedWidth i tolerance = .ok (.finite allowed)) (hw : i.width = .ok w) :
    rule.converged i = .ok (decide (w.toRat ≤ allowed.toRat)) := by
  have hle := not_congr (Number.compare_eq_gt_iff w allowed)
  have hcompare : (Decimal.finite w).compare (.finite allowed) = .ok (w.compare allowed) := rfl
  rw [converged, htolerance]
  simp only [hallowed, hw]
  change Except.ok (w.compare allowed != .gt) = _
  rw [Except.ok.injEq, bne, beq_eq_decide, ← decide_not, decide_eq_decide, hle, not_lt]

/-- A tolerance and a count of steps allow the smaller number of steps. -/
theorem steps_eq {i : Interval} {tolerance : Decimal} {relative : Bool} {iterations : Option ℕ}
    {m : ℕ} (hm : toleranceSteps ⟨iterations, some tolerance, relative⟩ i tolerance = .ok m) :
    steps ⟨iterations, some tolerance, relative⟩ i = .ok (iterations.elim m (min · m)) := by
  cases iterations <;> simp only [steps, hm] <;> rfl

theorem toleranceSteps_absolute {i : Interval} {w : Number} (hw : i.width = .ok w)
    (iterations : Option ℕ) (tolerance : Decimal) :
    toleranceSteps ⟨iterations, some tolerance, false⟩ i tolerance =
      halvings tolerance maxSteps w := by
  rw [toleranceSteps, if_neg Bool.false_ne_true, hw]
  rfl

end Checked

end StopRule

/-! ## A run with a tolerance -/

section Runs

variable {σ : Type} {ask : Number → Action σ Bool} {note : Step → Action σ Unit} {i : Interval}

/-- A search is over before its first step if its condition holds of the interval that is given. -/
theorem runOn_searchInterval {rule : StopRule} {checked : StopRule.Checked} {limit : ℕ}
    {stop : Bool}
    (hcheck : rule.check = .ok checked) (hsteps : checked.steps i = .ok limit)
    (hstop : checked.converged i = .ok stop) (s : σ) :
    (searchInterval i rule ask note).runOn s =
      if stop then (.ok i, s) else (bisect ask note checked.converged limit 0 i).runOn s := by
  rw [searchInterval,
    Action.runOn_bind_ok (a := checked) (t := s) (by rw [Action.runOn_liftM, hcheck]),
    Action.runOn_bind_ok (a := limit) (t := s) (by rw [Action.runOn_liftM, hsteps]),
    Action.runOn_bind_ok (a := stop) (t := s) (by rw [Action.runOn_liftM, hstop])]
  cases stop <;> rfl

/-- A search answers with the upper bound of the interval that it leaves. -/
theorem runOn_search (rule : StopRule) (s : σ) :
    (search i rule ask note).runOn s =
      (((searchInterval i rule ask note).runOn s).1.map Interval.high,
        ((searchInterval i rule ask note).runOn s).2) := by
  rw [search, ← Action.runOn_map]
  rfl

end Runs

variable {predicate : Predicate} {d m : ℕ} {i : Interval} {epsilon : Number}

/-- After `k` exact halvings a tolerance is met if and only if `k` are enough. -/
theorem Halved.converged {k : ℕ} {j : Interval} {past : Transcript}
    (h : Halved predicate d i.low i.high k j past) (hpos : 0 < epsilon.toRat)
    (hm : IsLeast {m : ℕ | i.high.toRat - i.low.toRat ≤ epsilon.toRat * 2 ^ m} m)
    (hdigits : d + k + 1 ≤ 60) (iterations : Option ℕ) :
    StopRule.Checked.converged ⟨iterations, some (.finite epsilon), false⟩ j =
      .ok (decide (m ≤ k)) := by
  obtain ⟨w, hw, hexact, -, -⟩ := h.grid.width hdigits
  rw [StopRule.Checked.converged_eq rfl rfl hw, Except.ok.injEq, decide_eq_decide, hexact,
    h.width_eq, div_le_iff₀ (by positivity), le_mul_two_pow_iff hpos hm]

/-- **A search with an absolute tolerance is a run without a condition**, of as many steps as meet
the tolerance, or of as many as it is allowed if those are less. -/
theorem runOn_searchInterval_absolute (h : i.Grid d 0) (hpos : 0 < epsilon.toRat)
    (hm : IsLeast {m : ℕ | i.high.toRat - i.low.toRat ≤ epsilon.toRat * 2 ^ m} m)
    (hdigits : d + m ≤ 59) (iterations : Option ℕ) (predicate : Predicate) :
    (searchInterval i ⟨iterations.map Nat.cast, some (.decimal (.finite epsilon)), false⟩
        (consult predicate)).runOn [] =
      (bisect (consult predicate) (fun _ => pure ()) (fun _ => pure false)
        (iterations.elim m (min · m)) 0 i).runOn [] := by
  set rule : StopRule.Checked := ⟨iterations, some (.finite epsilon), false⟩ with hrule
  set limit := iterations.elim m (min · m) with hlimit
  have hlimitle : limit ≤ m := by
    rw [hlimit]
    cases iterations with
    | none => exact le_rfl
    | some n => exact min_le_right n m
  obtain ⟨w, hw, hexact, hgrid, hfits⟩ := h.width (by omega)
  have hhalvings : StopRule.Checked.halvings (.finite epsilon) maxSteps w = .ok m :=
    StopRule.Checked.halvings_eq hgrid hfits (hexact ▸ hm) (by omega) (by rw [maxSteps]; omega)
  have hsteps : rule.steps i = .ok limit :=
    StopRule.Checked.steps_eq (by rw [StopRule.Checked.toleranceSteps_absolute hw, hhalvings])
  have hstart : Halved predicate d i.low i.high 0 i [] := .start h
  rw [runOn_searchInterval (StopRule.check_tolerance hpos false iterations) hsteps
    (hstart.converged hpos hm (by omega) iterations)]
  by_cases hzero : m ≤ 0
  · -- the tolerance is met from the start, so no step is allowed either
    have hnone : limit = 0 := by omega
    rw [if_pos (decide_eq_true hzero), hnone]
    rfl
  · rw [if_neg (by simpa using hzero)]
    refine runOn_bisect_of_stops_last _ _ _ (Halved predicate d i.low i.high) limit ?_ limit 0 i []
      (by omega) hstart
    intro k j past hk hP
    rcases hP.step (by omega) with hend | ⟨step, next, hadv, hnext⟩
    · exact .inl hend
    · refine .inr ⟨step, next, decide (m ≤ k + 1), hadv,
        hnext.converged hpos hm (by omega) iterations, fun hstop => ?_, hnext⟩
      have := of_decide_eq_true hstop
      omega

/-- **A search with an absolute tolerance takes the least number of steps that meets it.** Between
whole numbers of at most `d` digits, let `m` be the least number of halvings that bring the width
down to the tolerance, with `d + m ≤ 59`. The search asks exactly `m` points, whatever is
answered, and the interval it leaves has exactly the `2 ^ m`-th part of the width. With a count of
steps given as well it asks the smaller number of points, and is the search with that count
alone. -/
theorem search_converges (d m : ℕ) (low high : ℤ) (hle : low ≤ high) (hlow : |low| < 10 ^ d)
    (hhigh : |high| < 10 ^ d) (epsilon : Number) (hpos : 0 < epsilon.toRat)
    (hm : IsLeast {m : ℕ | (high - low : ℚ) ≤ epsilon.toRat * 2 ^ m} m) (hdigits : d + m ≤ 59)
    (predicate : Predicate) :
    ∃ (i j : Interval) (past : Transcript),
      Interval.ofFigures (.integer low) (.integer high) = .ok i ∧
      (searchInterval i { tolerance := some (.decimal (.finite epsilon)) }
        (consult predicate)).runOn [] = (.ok j, past) ∧
      (search i { tolerance := some (.decimal (.finite epsilon)) }
        (consult predicate)).runOn [] = (.ok j.high, past) ∧
      past.length = m ∧
      j.low = lastAnswered false past (.ofInt low) ∧
      j.high = lastAnswered true past (.ofInt high) ∧
      j.high.toRat - j.low.toRat = (high - low) / 2 ^ m ∧
      (high - low : ℚ) / 2 ^ m ≤ epsilon.toRat ∧
      ∀ n : ℕ, ∃ (r : Number) (asked : Transcript),
        (search i { iterations := some (n : ℤ), tolerance := some (.decimal (.finite epsilon)) }
          (consult predicate)).runOn [] = (.ok r, asked) ∧
        (search i { iterations := some ((min n m : ℕ) : ℤ) }
          (consult predicate)).runOn [] = (.ok r, asked) ∧
        asked.length = min n m := by
  obtain ⟨i, hi, hil, hih⟩ := Interval.ofFigures_integer hle
  have hgrid : i.Grid d 0 := ⟨hil ▸ Number.onGrid_ofInt hlow, hih ▸ Number.onGrid_ofInt hhigh⟩
  have hlowRat : i.low.toRat = low := by rw [hil, Number.toRat_ofInt]
  have hhighRat : i.high.toRat = high := by rw [hih, Number.toRat_ofInt]
  rw [← hlowRat, ← hhighRat] at hm ⊢
  -- an interval without width meets every tolerance, so its steps are not fewer than allowed
  have hcount : ∀ n ≤ m, (if i.low.toRat = i.high.toRat then 0 else n) = n := by
    intro n hn
    split <;> rename_i heq
    · have := hm.2 (show (0 : ℕ) ∈ _ by simp [heq, hpos.le])
      omega
    · rfl
  obtain ⟨j, past, hrun, hP⟩ := runOn_bisect_grid hgrid predicate (n := m) (by omega)
  rw [hcount m le_rfl] at hP
  have htolerance := runOn_searchInterval_absolute hgrid hpos hm hdigits none predicate
  rw [Option.map_none, Option.elim_none, hrun] at htolerance
  refine ⟨i, j, past, hi, htolerance, ?_, hP.length_eq, hil ▸ hP.low_eq, hih ▸ hP.high_eq,
    hP.width_eq, ?_, fun n => ?_⟩
  · rw [runOn_search, htolerance]
    rfl
  · exact (div_le_iff₀ (by positivity)).2 hm.1
  · obtain ⟨j, asked, hrun, hP⟩ := runOn_bisect_grid hgrid predicate (n := min n m)
      (by have := min_le_right n m; omega)
    rw [hcount _ (min_le_right n m)] at hP
    have hboth := runOn_searchInterval_absolute hgrid hpos hm hdigits (some n) predicate
    rw [Option.map_some, Option.elim_some, hrun] at hboth
    refine ⟨j.high, asked, ?_, ?_, hP.length_eq⟩
    · rw [runOn_search, hboth]
      rfl
    · rw [runOn_search_iterations, hrun]
      rfl

/-- Between `0` and `4`, with a tolerance of `1` and every point succeeding: two steps, and one if
no more is allowed. -/
theorem search_converges_to_one :
    IsLeast {m : ℕ | ((4 : ℤ) - (0 : ℤ) : ℚ) ≤ (Number.ofInt 1).toRat * 2 ^ m} 2 ∧
    ∃ (i j : Interval) (past : Transcript),
      Interval.ofFigures (.integer 0) (.integer 4) = .ok i ∧
      (search i { tolerance := some (.decimal (.ofInt 1)) } (consult fun _ _ => true)).runOn [] =
        (.ok j.high, past) ∧
      past.length = 2 ∧ j.high.toRat - j.low.toRat = 1 ∧
      ∃ (r : Number) (asked : Transcript),
        (search i { iterations := some 1, tolerance := some (.decimal (.ofInt 1)) }
          (consult fun _ _ => true)).runOn [] = (.ok r, asked) ∧ asked.length = 1 := by
  have hm : IsLeast {m : ℕ | ((4 : ℤ) - (0 : ℤ) : ℚ) ≤ (Number.ofInt 1).toRat * 2 ^ m} 2 := by
    refine ⟨by norm_num [Number.toRat_ofInt], fun k hk => ?_⟩
    by_contra hlt
    interval_cases k <;> norm_num [Number.toRat_ofInt] at hk
  obtain ⟨i, j, past, hi, -, hrun, hlength, -, -, hwidth, -, hcount⟩ :=
    search_converges 1 2 0 4 (by decide) (by decide) (by decide) (.ofInt 1)
      (by norm_num [Number.toRat_ofInt]) hm (by decide) (fun _ _ => true)
  obtain ⟨r, asked, hboth, -, hasked⟩ := hcount 1
  exact ⟨hm, i, j, past, hi, hrun, hlength, by rw [hwidth]; norm_num, r, asked,
    by exact_mod_cast hboth, hasked⟩

end MemoryLimit
