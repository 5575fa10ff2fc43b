import Mathlib
import MemoryLimit.Proofs.Bisection.Run
import MemoryLimit.Proofs.Bisection.Transcript

/-!
# When the precision runs out

Between decimal bounds of any scale the sixty digits of a calculation are used up sooner or
later, and midpoints are rounded. The bounds then still have room for their doubles, so no
midpoint leaves its interval and every step takes a proper half. A bisection ends early only
where the bounds are so close that no number of sixty digits separates them.

## Main definitions

* `Step.Halves` — a step takes a half of an interval, split at its midpoint.
* `Descends` — step after step takes a half of the interval before it.

## Main statements

* `Interval.Exhausted.width_le` — how close the bounds are where halving moves none of them.
* `walk_descends` — what a walk does, whether the digits suffice or not.
-/
namespace MemoryLimit

/-! ## Proper halves -/

/-- A step splits an interval at its midpoint, strictly inside, and leaves the half that the answer
names. -/
structure Step.Halves (i : Interval) (step : Step) : Prop where
  midpoint_eq : i.midpoint = .ok step.point
  low_lt : i.low < step.point
  lt_high : step.point < i.high
  left_low : step.left.low = if step.succeeded then i.low else step.point
  left_high : step.left.high = if step.succeeded then step.point else i.high

/-- From an interval, each step halves what the one before it left. -/
inductive Descends (i : Interval) : List Step → Interval → Prop
  | start : Descends i [] i
  | snoc {steps : List Step} {j : Interval} {step : Step} :
      Descends i steps j → step.Halves j → Descends i (steps ++ [step]) step.left

namespace Interval

variable {i : Interval} {least : ℤ} {most : ℚ}

/-- Both bounds and their doubles need no rounding to sixty digits. -/
structure HasRoom (i : Interval) : Prop where
  low : i.low.HasRoom
  high : i.high.HasRoom

/-- The larger magnitude of the two bounds. -/
def magnitude (i : Interval) : ℚ :=
  max |i.low.toRat| |i.high.toRat|

theorem Bounded.by_magnitude (h : i.Bounded least most) : i.Bounded least i.magnitude where
  least_le_low := h.least_le_low
  least_le_high := h.least_le_high
  low_le := le_max_left _ _
  high_le := le_max_right _ _

/-- **Where halving moves no bound, the bounds are close**: their distance is at most four units
in the sixtieth digit. -/
theorem Exhausted.width_le (h : i.Exhausted) (hroom : i.HasRoom) (hi : i.Bounded least most)
    (hleast : context.minUnit ≤ least - 1) (hmax : least ≤ context.maxExponent)
    (hmost : 2 * most ≤ (10 : ℚ) ^ context.maxExponent) :
    i.high.toRat - i.low.toRat ≤ 10 ^ (-58 : ℤ) * i.magnitude := by
  obtain ⟨m, hm, hbound⟩ := h
  obtain ⟨s, m', hm', -, hs, hmid⟩ := midpoint_spec hi hleast hmax hmost
  obtain rfl : m = m' := by rwa [hm, Except.ok.injEq] at hm'
  have hclose := abs_midpoint_sub_le hi.by_magnitude hroom.low hroom.high hs hmid.rounds
  have hhalf : (i.high.toRat - i.low.toRat) / 2 ≤ |m.toRat - (i.low.toRat + i.high.toRat) / 2| := by
    rcases hasBound_iff.1 hbound with heq | heq <;> rw [heq]
    · exact le_trans (by linarith) (neg_le_abs _)
    · exact le_trans (by linarith) (le_abs_self _)
  have hnonneg : 0 ≤ i.magnitude := (abs_nonneg _).trans (le_max_left _ _)
  have hscaled : (i.high.toRat - i.low.toRat) / 2 * 10 ^ 59 ≤ 2 * i.magnitude :=
    (mul_le_mul_of_nonneg_right hhalf (by positivity)).trans hclose
  rw [zpow_neg, inv_mul_eq_div, le_div_iff₀ (by positivity)]
  have : (i.high.toRat - i.low.toRat) * 10 ^ (58 : ℤ) * 5 =
      (i.high.toRat - i.low.toRat) / 2 * 10 ^ 59 := by
    norm_num
    ring
  linarith

/-- **One step with rounding**: it takes a proper half, whose bounds have room again. -/
theorem HasRoom.step (hroom : i.HasRoom) (hi : i.Bounded least most)
    (hleast : context.minUnit ≤ least - 1) (hmax : least ≤ context.maxExponent)
    (hmost : 2 * most ≤ (10 : ℚ) ^ context.maxExponent) :
    i.Exhausted ∨ ∃ m, i.midpoint = .ok m ∧ i.hasBound m = false ∧ ∀ index succeeded, ∃ left,
      i.narrow succeeded = .ok left ∧ Step.Halves i ⟨index, m, succeeded, left⟩ ∧
        left.HasRoom ∧ left.Bounded (least - 1) most := by
  obtain ⟨s, m, hm, hsfits, hs, hmid⟩ := midpoint_spec hi hleast hmax hmost
  obtain ⟨hlow, hhigh, hmroom⟩ := midpoint_mem hroom.low hroom.high hsfits hs hmid
  cases hinside : i.hasBound m with
  | true => exact .inl ⟨m, hm, hinside⟩
  | false =>
    have hne := not_or.1 (mt hasBound_iff.2 (by simp [hinside] : ¬ i.hasBound m = true))
    have hmmost : |m.toRat| ≤ most := by
      obtain ⟨hlow', -⟩ := abs_le.1 hi.low_le
      obtain ⟨-, hhigh'⟩ := abs_le.1 hi.high_le
      exact abs_le.2 ⟨by linarith, by linarith⟩
    refine .inr ⟨m, hm, hinside, fun index succeeded => ?_⟩
    obtain ⟨left, hnarrow, hl, hr⟩ := narrow_spec hm hlow hhigh succeeded
    obtain ⟨hlroom, hrroom⟩ := forall_of_half hl hr hroom.low hroom.high hmroom
    obtain ⟨hlleast, hrleast⟩ := forall_of_half (P := fun x => least - 1 ≤ x.exponent) hl hr
      (by linarith [hi.least_le_low]) (by linarith [hi.least_le_high]) hmid.least_le
    obtain ⟨hlmost, hrmost⟩ := forall_of_half (P := fun x => |x.toRat| ≤ most) hl hr
      hi.low_le hi.high_le hmmost
    exact ⟨left, hnarrow,
      ⟨hm, (Number.lt_iff _ _).2 (hlow.lt_of_ne' hne.1),
        (Number.lt_iff _ _).2 (hhigh.lt_of_ne hne.2), hl, hr⟩,
      ⟨hlroom, hrroom⟩, ⟨hlleast, hrleast, hlmost, hrmost⟩⟩

end Interval

/-! ## A run with rounding -/

/-- Notes a step behind the others. -/
def noteStep (step : Step) : Action (Transcript × List Step) Unit :=
  modify fun (past, steps) => (past, steps ++ [step])

/-- What holds after `k` steps from an interval: each took a proper half, every question was the
point of a step, and the bounds are as good as before but for `k` more places. -/
structure Descended (least : ℤ) (most : ℚ) (first : Interval) (k : ℕ) (i : Interval)
    (s : Transcript × List Step) : Prop where
  descends : Descends first s.2 i
  asked : s.1 = s.2.map fun step => (step.point, step.succeeded)
  length_eq : s.2.length = k
  room : i.HasRoom
  bounded : i.Bounded (least - k) most

variable {least : ℤ} {most : ℚ} {first i : Interval} {k : ℕ} {s : Transcript × List Step}

theorem Descended.step (predicate : Predicate) (h : Descended least most first k i s)
    (hleast : Interval.context.minUnit ≤ least - (k + 1 : ℕ))
    (hmax : least ≤ Interval.context.maxExponent)
    (hmost : 2 * most ≤ (10 : ℚ) ^ Interval.context.maxExponent) :
    i.Exhausted ∨ ∃ step t,
      Advances (fun point => (consult predicate point).onFirst) noteStep k i s step t ∧
        Descended least most first (k + 1) step.left t := by
  rcases h.room.step h.bounded (by push_cast at hleast; omega) (by omega) hmost with
    hend | ⟨m, hm, hinside, hhalf⟩
  · exact .inl hend
  obtain ⟨left, hnarrow, hhalves, hroom, hbounded⟩ := hhalf (k + 1) (predicate s.1 m)
  refine .inr ⟨_, (s.1 ++ [(m, predicate s.1 m)], s.2 ++ [⟨k + 1, m, predicate s.1 m, left⟩]),
    ⟨rfl, hm, hinside, hnarrow, (s.1 ++ [(m, predicate s.1 m)], s.2), rfl, rfl⟩, ?_⟩
  refine ⟨h.descends.snoc hhalves, ?_, ?_, hroom, ?_⟩
  · simp [← h.asked]
  · simp [h.length_eq]
  · rwa [show least - (k + 1 : ℕ) = least - k - 1 by push_cast; ring]

/-- **A walk stays sound when the precision runs out.** Between bounds of at most 59 digits and
with exponents between -1000 and 1000 it never fails, whatever is answered: it asks exactly the
points of its steps, each strictly inside the interval that the step before left, and each step
takes a proper half. It ends early only where the width is at most the `10 ^ 58`-th part of the
larger magnitude. -/
theorem walk_descends (i : Interval) (hlow : i.low.coefficient < 10 ^ 59)
    (hhigh : i.high.coefficient < 10 ^ 59)
    (hlowExponent : -1000 ≤ i.low.exponent ∧ i.low.exponent ≤ 1000)
    (hhighExponent : -1000 ≤ i.high.exponent ∧ i.high.exponent ≤ 1000)
    (n : ℤ) (hn : 0 ≤ n ∧ n ≤ 900000) (predicate : Predicate) :
    ∃ (j : Interval) (steps : List Step),
      (walk i n (fun point => (consult predicate point).onFirst) noteStep).runOn ([], []) =
        (.ok j, (steps.map fun step => (step.point, step.succeeded), steps)) ∧
      Descends i steps j ∧ (steps.length : ℤ) ≤ n ∧
      ((steps.length : ℤ) < n → j.high.toRat - j.low.toRat ≤
        10 ^ (-58 : ℤ) * max |j.low.toRat| |j.high.toRat|) := by
  obtain ⟨n, rfl⟩ := Int.eq_ofNat_of_zero_le hn.1
  have hminUnit : Interval.context.minUnit = -1000058 := rfl
  have hmaxExponent : Interval.context.maxExponent = 999999 := rfl
  have hmost : 2 * (10 : ℚ) ^ (1059 : ℤ) ≤ 10 ^ Interval.context.maxExponent :=
    (Number.two_mul_ten_zpow_le 1059).trans
      (zpow_le_zpow_right₀ (by norm_num) (by rw [hmaxExponent]; norm_num))
  have hstart : Descended (-1000) (10 ^ (1059 : ℤ)) i 0 i ([], []) :=
    ⟨.start, rfl, rfl, ⟨Number.hasRoom_of_lt hlow, Number.hasRoom_of_lt hhigh⟩,
      ⟨by simpa using hlowExponent.1, by simpa using hhighExponent.1,
        Number.abs_toRat_le hlow hlowExponent.2 rfl,
        Number.abs_toRat_le hhigh hhighExponent.2 rfl⟩⟩
  have hstep : ∀ k j s, k < n → Descended (-1000) (10 ^ (1059 : ℤ)) i k j s → j.Exhausted ∨
      ∃ step t stop,
        Advances (fun point => (consult predicate point).onFirst) noteStep k j s step t ∧
          (pure false : Except Failure Bool) = .ok stop ∧
          Descended (-1000) (10 ^ (1059 : ℤ)) i (k + 1) step.left t := by
    intro k j s hk hP
    rcases hP.step predicate (by omega) (by omega) hmost with hstop | ⟨step, t, hadv, hnext⟩
    · exact .inl hstop
    · exact .inr ⟨step, t, false, hadv, rfl, hnext⟩
  obtain ⟨k, j, ⟨past, steps⟩, hrun, hk, hP, hend⟩ :=
    bisect_induction (fun point => (consult predicate point).onFirst) noteStep (fun _ => pure false)
      (Descended (-1000) (10 ^ (1059 : ℤ)) i) n hstep n 0 i ([], []) (by omega) hstart
  obtain rfl : past = steps.map fun step => (step.point, step.succeeded) := hP.asked
  obtain rfl : steps.length = k := hP.length_eq
  refine ⟨j, steps, ?_, hP.descends, by exact_mod_cast hk, fun hshort => ?_⟩
  · rw [← hrun]
    exact congrArg (fun a => Action.runOn a _) (walk_eq_bisect i n)
  · -- a run that is short of steps has come to where halving moves no bound
    rcases hend with hlast | hexhausted | hdone
    · omega
    · exact hexhausted.width_le hP.room hP.bounded (by omega) (by omega) hmost
    · cases hdone

/-- A thousand steps between `-1` and `2`, with every question answered by its place in the
order: the sixty digits do not last that long. -/
theorem walk_descends_thousand :
    ∃ (j : Interval) (steps : List Step),
      (walk ⟨.ofInt (-1), .ofInt 2, by decide⟩ 1000
        (fun point => (consult (fun past _ => past.length % 2 = 0) point).onFirst) noteStep).runOn
          ([], []) = (.ok j, (steps.map fun step => (step.point, step.succeeded), steps)) ∧
      Descends ⟨.ofInt (-1), .ofInt 2, by decide⟩ steps j ∧ steps.length ≤ 1000 := by
  obtain ⟨j, steps, hrun, hdescends, hlength, -⟩ :=
    walk_descends ⟨.ofInt (-1), .ofInt 2, by decide⟩ (by decide) (by decide) (by decide) (by decide)
      1000 (by decide) (fun past _ => past.length % 2 = 0)
  exact ⟨j, steps, hrun, hdescends, by exact_mod_cast hlength⟩

end MemoryLimit
