import Mathlib
import MemoryLimit.Bisection.Search
import MemoryLimit.Proofs.Bisection.Midpoint

/-!
# Runs of a bisection

A bisection takes one step after the other: the midpoint is asked, the half is taken, and the
step is noted. What every step preserves holds of the whole run, and a run ends when its steps
are used up, when a midpoint coincides with a bound, or when its condition holds.

## Main definitions

* `Interval.Exhausted` — halving moves no bound any more.
* `Advances` — one step, with its effect on the state of whoever answers.

## Main statements

* `bisect_induction` — the invariant of a run.
* `runOn_bisect_of_stops_last` — when a condition changes nothing.
* `runOn_search_iterations` — a search that ends by its count alone is a run of that many steps.
-/
namespace MemoryLimit

variable {σ : Type} {ask : Number → Action σ Bool} {note : Step → Action σ Unit}
  {done : Interval → Except Failure Bool}

/-- The midpoint coincides with a bound. -/
def Interval.Exhausted (i : Interval) : Prop :=
  ∃ m, i.midpoint = .ok m ∧ i.hasBound m = true

/-- One step of a bisection after `index` others, from an interval and a state to the state
after it. -/
structure Advances (ask : Number → Action σ Bool) (note : Step → Action σ Unit) (index : ℕ)
    (i : Interval) (s : σ) (step : Step) (t : σ) : Prop where
  index_eq : step.index = index + 1
  midpoint_eq : i.midpoint = .ok step.point
  inside : i.hasBound step.point = false
  narrow_eq : i.narrow step.succeeded = .ok step.left
  answered : ∃ u,
    (ask step.point).runOn s = (.ok step.succeeded, u) ∧ (note step).runOn u = (.ok (), t)

theorem runOn_bisect_of_exhausted {i : Interval} (h : i.Exhausted) (fuel index : ℕ) (s : σ) :
    (bisect ask note done (fuel + 1) index i).runOn s = (.ok i, s) := by
  obtain ⟨m, hm, hbound⟩ := h
  have hraise : Signal.raise i.midpoint = .ok m := by rw [hm]; rfl
  rw [bisect, Action.runOn_bind_ok (a := m) (t := s) (by rw [Action.runOn_liftM, hraise]),
    if_pos hbound, Action.runOn_pure]

theorem Advances.runOn_bisect {index : ℕ} {i : Interval} {s t : σ} {step : Step}
    (h : Advances ask note index i s step t) {stop : Bool} (hstop : done step.left = .ok stop)
    (fuel : ℕ) :
    (bisect ask note done (fuel + 1) index i).runOn s =
      if stop then (.ok step.left, t)
      else (bisect ask note done fuel (index + 1) step.left).runOn t := by
  obtain ⟨u, hask, hnote⟩ := h.answered
  have hraise : Signal.raise i.midpoint = .ok step.point := by rw [h.midpoint_eq]; rfl
  have hstep : step = ⟨index + 1, step.point, step.succeeded, step.left⟩ := by rw [← h.index_eq]
  rw [bisect, Action.runOn_bind_ok (a := step.point) (t := s) (by rw [Action.runOn_liftM, hraise]),
    if_neg (by simp [h.inside]), Action.runOn_bind_ok hask,
    Action.runOn_bind_ok (a := step.left) (t := u) (by rw [Action.runOn_liftM, h.narrow_eq]),
    ← hstep, Action.runOn_bind_ok hnote,
    Action.runOn_bind_ok (a := stop) (t := t) (by rw [Action.runOn_liftM, hstop])]
  cases stop <;> simp

/-- **The invariant of a run.** What holds of the first interval and state, and is preserved by
every step, holds of the interval and state that the run ends with. -/
theorem bisect_induction (ask : Number → Action σ Bool) (note : Step → Action σ Unit)
    (done : Interval → Except Failure Bool) (P : ℕ → Interval → σ → Prop) (last : ℕ)
    (hstep : ∀ k i s, k < last → P k i s → i.Exhausted ∨
      ∃ step t stop, Advances ask note k i s step t ∧ done step.left = .ok stop ∧
        P (k + 1) step.left t)
    (fuel index : ℕ) (i : Interval) (s : σ) (hlast : index + fuel = last) (h0 : P index i s) :
    ∃ k j t, (bisect ask note done fuel index i).runOn s = (.ok j, t) ∧ k ≤ last ∧ P k j t ∧
      (k = last ∨ j.Exhausted ∨ done j = .ok true) := by
  induction fuel generalizing index i s with
  | zero => exact ⟨index, i, s, rfl, by omega, h0, .inl (by omega)⟩
  | succ fuel ih =>
    rcases hstep index i s (by omega) h0 with hend | ⟨step, t, stop, hadv, hstop, hP⟩
    · exact ⟨index, i, s, runOn_bisect_of_exhausted hend fuel index s, by omega, h0,
        .inr (.inl hend)⟩
    · rw [hadv.runOn_bisect hstop fuel]
      cases stop
      · exact ih (index + 1) step.left t (by omega) hP
      · exact ⟨index + 1, step.left, t, rfl, by omega, hP, .inr (.inr hstop)⟩

/-- A condition that holds at the last step at the earliest changes nothing. -/
theorem runOn_bisect_of_stops_last (ask : Number → Action σ Bool) (note : Step → Action σ Unit)
    (done : Interval → Except Failure Bool) (P : ℕ → Interval → σ → Prop) (last : ℕ)
    (hstep : ∀ k i s, k < last → P k i s → i.Exhausted ∨
      ∃ step t stop, Advances ask note k i s step t ∧ done step.left = .ok stop ∧
        (stop = true → k + 1 = last) ∧ P (k + 1) step.left t)
    (fuel index : ℕ) (i : Interval) (s : σ) (hlast : index + fuel = last) (h0 : P index i s) :
    (bisect ask note done fuel index i).runOn s =
      (bisect ask note (fun _ => pure false) fuel index i).runOn s := by
  induction fuel generalizing index i s with
  | zero => rfl
  | succ fuel ih =>
    rcases hstep index i s (by omega) h0 with hend | ⟨step, t, stop, hadv, hstop, hearly, hP⟩
    · rw [runOn_bisect_of_exhausted hend, runOn_bisect_of_exhausted hend]
    · have hgoesOn : (fun _ => pure false : Interval → Except Failure Bool) step.left = .ok false := rfl
      rw [hadv.runOn_bisect hstop, hadv.runOn_bisect hgoesOn, if_neg Bool.false_ne_true]
      cases stop with
      | false =>
        rw [if_neg Bool.false_ne_true]
        exact ih (index + 1) step.left t (by omega) hP
      | true =>
        obtain rfl : fuel = 0 := by have := hearly rfl; omega
        rfl

/-- A walk over a count of steps that is not negative is a run without a condition. -/
theorem walk_eq_bisect (i : Interval) (n : ℕ) :
    walk i n ask note = bisect ask note (fun _ => pure false) n 0 i := by
  rw [walk, if_neg (by omega), Int.toNat_natCast]

/-- A search that ends by its count alone is a run without a condition. -/
theorem runOn_search_iterations (i : Interval) (n : ℕ) (s : σ) :
    (search i { iterations := some (n : ℤ) } ask note).runOn s =
      (((bisect ask note (fun _ => pure false) n 0 i).runOn s).1.map Interval.high,
        ((bisect ask note (fun _ => pure false) n 0 i).runOn s).2) := by
  have hcheck : StopRule.check { iterations := some (n : ℤ) } = .ok ⟨some n, none, false⟩ := by
    have hn : ¬ (n : ℤ) < 0 := by omega
    simp [StopRule.check, hn]
    rfl
  have hrun : searchInterval i { iterations := some (n : ℤ) } ask note =
      (bisect ask note (fun _ => pure false) n 0 i : Action σ Interval) := by
    rw [searchInterval, hcheck]
    rfl
  rw [search, hrun, ← Action.runOn_map]
  rfl

end MemoryLimit
