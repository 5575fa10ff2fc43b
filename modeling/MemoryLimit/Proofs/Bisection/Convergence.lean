import Mathlib
import MemoryLimit.Proofs.Bisection.Precision
import MemoryLimit.Proofs.Bisection.Tolerance

/-!
# What convergence means

The condition of a tolerance compares rounded values: a width rounded to sixty digits with an
absolute tolerance, or with a relative one times the magnitude of the upper bound, where magnitude
and product are rounded to the standard number of digits. So an interval that meets a tolerance is
as narrow as the tolerance says up to these roundings, and exactly so where none is needed.

## Main definitions

* `Interval.allowance` — the width that a tolerance allows, exactly.
* `Interval.Unrounded` — the condition of a tolerance compares exact values.
* `Narrowed` — what holds after a number of steps of a search.

## Main statements

* `StopRule.Checked.converged_spec` — the condition of a tolerance, and what follows if it holds.
* `search_converged_width` — the width of the interval that a search with a tolerance leaves.
-/
namespace MemoryLimit

open Number (ten_zpow_pos)

/-! ## Errors of rounding -/

namespace Rounds

variable {p : ℕ} {v r : ℚ}

/-- A rounded magnitude is larger by less than a unit in the last place. -/
theorem le_mul (h : Rounds p v r) (hv : 0 ≤ v) : r ≤ v * (1 + 1 / 10 ^ (p - 1)) := by
  have hclose := h.close
  rw [abs_of_nonneg hv, ← le_div_iff₀ (by positivity)] at hclose
  calc r ≤ v + |r - v| := by linarith [le_abs_self (r - v)]
    _ ≤ v + v / 10 ^ (p - 1) := by linarith
    _ = v * (1 + 1 / 10 ^ (p - 1)) := by ring

/-- A rounded magnitude is smaller by less than a unit in the last place. -/
theorem mul_le (h : Rounds p v r) (hv : 0 ≤ v) : v * (1 - 1 / 10 ^ (p - 1)) ≤ r := by
  have hclose := h.close
  rw [abs_of_nonneg hv, ← le_div_iff₀ (by positivity)] at hclose
  calc v * (1 - 1 / 10 ^ (p - 1)) = v - v / 10 ^ (p - 1) := by ring
    _ ≤ v - |r - v| := by linarith
    _ ≤ r := by linarith [neg_le_abs (r - v)]

end Rounds

/-- **A magnitude is the exact magnitude, rounded.** -/
theorem Context.abs_spec {ctx : Context} (hp : 0 < ctx.precision) (least : ℤ) {x : Number}
    (hmin : ctx.minUnit ≤ x.exponent) (hleast : least ≤ x.exponent) (hmax : least ≤ ctx.maxExponent)
    (hbig : |x.toRat| ≤ (10 : ℚ) ^ ctx.maxExponent) :
    ∃ r, ctx.abs x = .ok r ∧ ctx.IsResult least |x.toRat| r := by
  let z : Number := { x with negative := false }
  have hz : z.toRat = |x.toRat| := by
    rw [Number.abs_toRat, Number.toRat_of_nonnegative rfl]
  obtain ⟨r, hr, hresult, -⟩ := finish_spec hp least (x := z) hmin hleast hmax
    (by rwa [hz, abs_abs])
  exact ⟨r, hr, hz ▸ hresult⟩

/-! ## The condition of a tolerance -/

/-- The width that a tolerance allows an interval to have, without any rounding. -/
def Interval.allowance (i : Interval) (relative : Bool) (epsilon : ℚ) : ℚ :=
  if relative then epsilon * |i.high.toRat| else epsilon

/-- None of the values that the condition of a tolerance compares needs rounding. -/
structure Interval.Unrounded (i : Interval) (relative : Bool) (epsilon : ℚ) : Prop where
  width : Representable 60 (i.high.toRat - i.low.toRat)
  magnitude : relative = true → Representable 28 |i.high.toRat|
  product : relative = true → Representable 28 (epsilon * |i.high.toRat|)

/-- How much more than the exact width is allowed where magnitude and product were rounded. -/
def roundingSlack (relative : Bool) : ℚ :=
  if relative then (1 + 1 / 10 ^ 27) ^ 2 else 1

namespace StopRule.Checked

variable {i : Interval} {epsilon : Number}

/-- Tolerances and bounds that are neither too large nor too small to be multiplied. -/
structure Measured (epsilon : Number) (i : Interval) : Prop where
  positive : 0 < epsilon.toRat
  places : -1000 ≤ epsilon.exponent
  most : epsilon.toRat ≤ 10 ^ (1028 : ℤ)
  bounded : i.Bounded (-2000) (10 ^ (1059 : ℤ))

/-- **The width that a tolerance allows is the exact one, rounded at most twice.** -/
theorem allowedWidth_spec (h : Measured epsilon i) (iterations : Option ℕ)
    (tolerance : Option Decimal) (relative : Bool) :
    ∃ a : Number,
      allowedWidth ⟨iterations, tolerance, relative⟩ i (.finite epsilon) = .ok (.finite a) ∧
      a.toRat ≤ i.allowance relative epsilon.toRat * roundingSlack relative ∧
      (i.Unrounded relative epsilon.toRat → a.toRat = i.allowance relative epsilon.toRat) := by
  have hminUnit : Context.standard.minUnit = -1000026 := rfl
  have hmaxExponent : Context.standard.maxExponent = 999999 := rfl
  cases relative with
  | false => exact ⟨epsilon, rfl, by simp [Interval.allowance, roundingSlack], fun _ => rfl⟩
  | true =>
    have hleast := h.bounded.least_le_high
    have hplaces := h.places
    have hmost : (10 : ℚ) ^ (1059 : ℤ) ≤ 10 ^ Context.standard.maxExponent :=
      zpow_le_zpow_right₀ (by norm_num) (by omega)
    obtain ⟨s, hs, hscale⟩ := Context.standard.abs_spec (by decide) (-2000) (x := i.high)
      (by omega) hleast (by omega) (h.bounded.high_le.trans hmost)
    have hsle : |s.toRat| ≤ 10 ^ (1059 : ℤ) :=
      hscale.rounds.abs_le_of_le (representable_ten_zpow _ _)
        (by rw [abs_abs]; exact h.bounded.high_le)
    have hsleast := hscale.least_le
    have hsnonneg : 0 ≤ s.toRat :=
      hscale.rounds.le_of_le 0 ⟨0, 0, by simp, by simp⟩ (abs_nonneg _)
    have hproduct : |epsilon.toRat * s.toRat| ≤ 10 ^ Context.standard.maxExponent := by
      have hpow : (10 : ℚ) ^ (1028 : ℤ) * 10 ^ (1059 : ℤ) ≤ 10 ^ Context.standard.maxExponent := by
        rw [← zpow_add₀ (by norm_num)]
        exact zpow_le_zpow_right₀ (by norm_num) (by omega)
      rw [abs_mul, abs_of_pos h.positive]
      exact (mul_le_mul h.most hsle (abs_nonneg _) (ten_zpow_pos _).le).trans hpow
    obtain ⟨a, ha, hallowed⟩ := Context.standard.mul_spec (by decide) (-3000) (x := epsilon) (y := s)
      (by omega) (by omega) (by omega) hproduct
    refine ⟨a, ?_, ?_, fun hexact => ?_⟩
    · rw [allowedWidth, if_pos rfl, hs]
      change Decimal.finite <$> Context.standard.mul epsilon s = _
      rw [ha]
      rfl
    · have hslack : (0 : ℚ) ≤ 1 + 1 / 10 ^ 27 := by positivity
      rw [Interval.allowance, roundingSlack, if_pos rfl, if_pos rfl]
      calc a.toRat ≤ epsilon.toRat * s.toRat * (1 + 1 / 10 ^ 27) :=
            hallowed.rounds.le_mul (mul_nonneg h.positive.le hsnonneg)
        _ ≤ epsilon.toRat * (|i.high.toRat| * (1 + 1 / 10 ^ 27)) * (1 + 1 / 10 ^ 27) :=
            mul_le_mul_of_nonneg_right
              (mul_le_mul_of_nonneg_left (hscale.rounds.le_mul (abs_nonneg _)) h.positive.le) hslack
        _ = epsilon.toRat * |i.high.toRat| * (1 + 1 / 10 ^ 27) ^ 2 := by ring
    · rw [Interval.allowance, if_pos rfl, ← hscale.rounds.eq_of_representable (hexact.magnitude rfl)]
      refine hallowed.rounds.eq_of_representable ?_
      rw [hscale.rounds.eq_of_representable (hexact.magnitude rfl)]
      exact hexact.product rfl

/-- **The condition of a tolerance**: it is always decided, and an interval that meets it is as
narrow as the tolerance says, up to the roundings. -/
theorem converged_spec (h : Measured epsilon i) (iterations : Option ℕ) (relative : Bool) :
    ∃ stop, converged ⟨iterations, some (.finite epsilon), relative⟩ i = .ok stop ∧
      (stop = true →
        (i.high.toRat - i.low.toRat) * (1 - 1 / 10 ^ 59) ≤
          i.allowance relative epsilon.toRat * roundingSlack relative ∧
        (i.Unrounded relative epsilon.toRat →
          i.high.toRat - i.low.toRat ≤ i.allowance relative epsilon.toRat)) := by
  have hminUnit : Interval.context.minUnit = -1000058 := rfl
  have hmaxExponent : Interval.context.maxExponent = 999999 := rfl
  obtain ⟨w, hw, hwidth⟩ := Interval.width_spec h.bounded (by omega) (by omega)
    ((Number.two_mul_ten_zpow_le 1059).trans (zpow_le_zpow_right₀ (by norm_num) (by omega)))
  obtain ⟨a, ha, hslack, hexact⟩ :=
    allowedWidth_spec h iterations (some (.finite epsilon)) relative
  have hnonneg : 0 ≤ i.high.toRat - i.low.toRat := sub_nonneg.2 i.toRat_le
  refine ⟨_, converged_eq rfl ha hw, fun hstop => ⟨?_, fun hunrounded => ?_⟩⟩
  · exact (hwidth.rounds.mul_le hnonneg).trans ((of_decide_eq_true hstop).trans hslack)
  · rw [← hexact hunrounded, ← hwidth.rounds.eq_of_representable hunrounded.width]
    exact of_decide_eq_true hstop

/-- Halving a width always comes to an end with a number of steps. -/
theorem exists_halvings (epsilon : Number) (fuel : ℕ) {x : Number} (hfuel : (fuel : ℤ) ≤ 1000)
    (hfits : x.coefficient < 10 ^ 60) (hleast : -3000 + (fuel : ℤ) ≤ x.exponent)
    (hmost : |x.toRat| ≤ 10 ^ (1060 : ℤ)) :
    ∃ n ≤ fuel, halvings (.finite epsilon) fuel x = .ok n := by
  have hminUnit : Interval.context.minUnit = -1000058 := rfl
  have hmaxExponent : Interval.context.maxExponent = 999999 := rfl
  induction fuel generalizing x with
  | zero => exact ⟨0, le_rfl, rfl⟩
  | succ fuel ih =>
    push_cast at hleast hfuel
    have hcompare : (Decimal.finite x).compare (.finite epsilon) = .ok (x.compare epsilon) := rfl
    rw [halvings, hcompare]
    cases x.compare epsilon with
    | lt => exact ⟨0, by omega, rfl⟩
    | eq => exact ⟨0, by omega, rfl⟩
    | gt =>
      obtain ⟨r, hr, hresult⟩ := Interval.context.half_spec (by decide) (-3000 + fuel) hfits
        (by omega) (by omega) (by omega)
        (hmost.trans (zpow_le_zpow_right₀ (by norm_num) (by omega)))
      have hrmost : |r.toRat| ≤ 10 ^ (1060 : ℤ) := by
        refine hresult.rounds.abs_le_of_le (representable_ten_zpow _ _) ?_
        rw [abs_div, abs_two]
        exact (div_le_self (abs_nonneg _) one_le_two).trans hmost
      obtain ⟨n, hn, hrest⟩ := ih (by omega) hresult.fits hresult.least_le hrmost
      refine ⟨n + 1, by omega, ?_⟩
      rw [hr]
      change (do return (← halvings (.finite epsilon) fuel r) + 1) = Except.ok (n + 1)
      rw [hrest]
      rfl

/-- A tolerance always allows some number of steps. -/
theorem Measured.exists_steps (h : Measured epsilon i) (iterations : Option ℕ) (relative : Bool) :
    ∃ limit ≤ maxSteps, steps ⟨iterations, some (.finite epsilon), relative⟩ i = .ok limit := by
  have hminUnit : Interval.context.minUnit = -1000058 := rfl
  have hmaxExponent : Interval.context.maxExponent = 999999 := rfl
  obtain ⟨m, hm, hbound⟩ : ∃ m ≤ maxSteps,
      toleranceSteps ⟨iterations, some (.finite epsilon), relative⟩ i (.finite epsilon) = .ok m := by
    cases relative with
    | true => exact ⟨maxSteps, le_rfl, rfl⟩
    | false =>
      obtain ⟨w, hw, hwidth⟩ := Interval.width_spec h.bounded (by omega) (by omega)
        ((Number.two_mul_ten_zpow_le 1059).trans (zpow_le_zpow_right₀ (by norm_num) (by omega)))
      have hwleast := hwidth.least_le
      have hwmost : |w.toRat| ≤ 10 ^ (1060 : ℤ) := by
        refine hwidth.rounds.abs_le_of_le (representable_ten_zpow _ _) ?_
        refine (abs_sub _ _).trans (le_trans ?_ (Number.two_mul_ten_zpow_le 1059))
        linarith [h.bounded.high_le, h.bounded.low_le]
      rw [toleranceSteps_absolute hw]
      exact exists_halvings epsilon maxSteps (by rw [maxSteps]; omega) hwidth.fits
        (by rw [maxSteps]; omega) hwmost
  refine ⟨_, ?_, steps_eq hbound⟩
  cases iterations with
  | none => exact hm
  | some n => exact (min_le_right n m).trans hm

end StopRule.Checked

/-! ## A search with a tolerance -/

theorem Interval.Bounded.mono {i : Interval} {least least' : ℤ} {most : ℚ}
    (h : i.Bounded least most) (hle : least' ≤ least) : i.Bounded least' most where
  least_le_low := hle.trans h.least_le_low
  least_le_high := hle.trans h.least_le_high
  low_le := h.low_le
  high_le := h.high_le

/-- What holds after `k` steps of a search between bounds of at most 59 digits and with exponents
between -1000 and 1000: the bounds are the last points with either answer, and they are as good as
those given but for `k` more places. -/
structure Narrowed (first : Interval) (k : ℕ) (i : Interval) (past : Transcript) : Prop where
  length_eq : past.length = k
  low_eq : i.low = lastAnswered false past first.low
  high_eq : i.high = lastAnswered true past first.high
  room : i.HasRoom
  bounded : i.Bounded (-1000 - k) (10 ^ (1059 : ℤ))

namespace Narrowed

variable {first i : Interval} {k : ℕ} {past : Transcript} {epsilon : Number}

theorem start (hlow : i.low.coefficient < 10 ^ 59) (hhigh : i.high.coefficient < 10 ^ 59)
    (hlowExponent : -1000 ≤ i.low.exponent ∧ i.low.exponent ≤ 1000)
    (hhighExponent : -1000 ≤ i.high.exponent ∧ i.high.exponent ≤ 1000) : Narrowed i 0 i [] where
  length_eq := rfl
  low_eq := rfl
  high_eq := rfl
  room := ⟨Number.hasRoom_of_lt hlow, Number.hasRoom_of_lt hhigh⟩
  bounded :=
    ⟨by simpa using hlowExponent.1, by simpa using hhighExponent.1,
      Number.abs_toRat_le hlow hlowExponent.2 rfl, Number.abs_toRat_le hhigh hhighExponent.2 rfl⟩

/-- **One step of a search**: it ends where halving moves no bound, and else asks a point inside. -/
theorem step (h : Narrowed first k i past) (predicate : Predicate) (hk : k < maxSteps) :
    i.Exhausted ∨ ∃ step next, Advances (consult predicate) (fun _ => pure ()) k i past step next ∧
      Narrowed first (k + 1) step.left next := by
  have hminUnit : Interval.context.minUnit = -1000058 := rfl
  have hmaxExponent : Interval.context.maxExponent = 999999 := rfl
  have hmost : 2 * (10 : ℚ) ^ (1059 : ℤ) ≤ 10 ^ Interval.context.maxExponent :=
    (Number.two_mul_ten_zpow_le 1059).trans (zpow_le_zpow_right₀ (by norm_num) (by omega))
  rw [maxSteps] at hk
  rcases h.room.step h.bounded (by omega) (by omega) hmost with hend | ⟨m, hm, hinside, hhalf⟩
  · exact .inl hend
  set answer := predicate past m with hanswer
  obtain ⟨left, hnarrow, hhalves, hroom, hbounded⟩ := hhalf (k + 1) answer
  refine .inr ⟨⟨k + 1, m, answer, left⟩, past ++ [(m, answer)],
    ⟨rfl, hm, hinside, hnarrow, _, runOn_consult predicate m past, rfl⟩, ?_⟩
  refine ⟨by simp [h.length_eq], ?_, ?_, hroom, ?_⟩
  · rw [hhalves.left_low, lastAnswered_append, ← h.low_eq]
    cases answer <;> rfl
  · rw [hhalves.left_high, lastAnswered_append, ← h.high_eq]
  · rwa [show -1000 - ((k + 1 : ℕ) : ℤ) = -1000 - k - 1 by push_cast; ring]

/-- As long as a search may last, its tolerance can be compared with the width. -/
theorem measured (h : Narrowed first k i past) (hk : k ≤ maxSteps) (hpos : 0 < epsilon.toRat)
    (hfits : epsilon.coefficient < 10 ^ 28)
    (hexponent : -1000 ≤ epsilon.exponent ∧ epsilon.exponent ≤ 1000) :
    StopRule.Checked.Measured epsilon i where
  positive := hpos
  places := hexponent.1
  most := (le_abs_self _).trans (Number.abs_toRat_le hfits hexponent.2 rfl)
  bounded := h.bounded.mono (by rw [maxSteps] at hk; omega)

end Narrowed

/-- **A run of a search with a tolerance**: it never fails, and it ends when its steps are used up,
where halving moves no bound, or when the condition of its tolerance holds. -/
theorem runOn_searchInterval_tolerance {i : Interval} (hstart : Narrowed i 0 i [])
    {epsilon : Number}
    (hpos : 0 < epsilon.toRat) (hfits : epsilon.coefficient < 10 ^ 28)
    (hexponent : -1000 ≤ epsilon.exponent ∧ epsilon.exponent ≤ 1000) (relative : Bool)
    (iterations : Option ℕ) (predicate : Predicate) :
    ∃ (j : Interval) (past : Transcript) (limit : ℕ),
      (searchInterval i ⟨iterations.map Nat.cast, some (.decimal (.finite epsilon)), relative⟩
        (consult predicate)).runOn [] = (.ok j, past) ∧
      StopRule.Checked.steps ⟨iterations, some (.finite epsilon), relative⟩ i = .ok limit ∧
      limit ≤ maxSteps ∧ past.length ≤ limit ∧ Narrowed i past.length j past ∧
      (past.length = limit ∨ j.Exhausted ∨
        StopRule.Checked.converged ⟨iterations, some (.finite epsilon), relative⟩ j = .ok true) := by
  set checked : StopRule.Checked := ⟨iterations, some (.finite epsilon), relative⟩
  have hconverged : ∀ {k j past}, k ≤ maxSteps → Narrowed i k j past →
      ∃ stop, checked.converged j = .ok stop := by
    intro k j past hk hP
    obtain ⟨stop, hstop, -⟩ :=
      StopRule.Checked.converged_spec (hP.measured hk hpos hfits hexponent) iterations relative
    exact ⟨stop, hstop⟩
  obtain ⟨limit, hlimit, hsteps⟩ :=
    (hstart.measured (Nat.zero_le _) hpos hfits hexponent).exists_steps iterations relative
  obtain ⟨stop, hstop⟩ := hconverged (Nat.zero_le _) hstart
  have hrun : (searchInterval i
      ⟨iterations.map Nat.cast, some (.decimal (.finite epsilon)), relative⟩
      (consult predicate)).runOn [] = if stop then (.ok i, []) else
        (bisect (consult predicate) (fun _ => pure ()) checked.converged limit 0 i).runOn [] :=
    runOn_searchInterval (StopRule.check_tolerance hpos relative iterations) hsteps hstop []
  cases stop with
  | true => exact ⟨i, [], limit, hrun, hsteps, hlimit, Nat.zero_le _, hstart, .inr (.inr hstop)⟩
  | false =>
    obtain ⟨k, j, past, hbisect, hk, hP, hend⟩ := bisect_induction (consult predicate)
      (fun _ => pure ()) checked.converged (Narrowed i) limit (fun k j past hk hP => by
        rcases hP.step predicate (by omega) with hend | ⟨step, next, hadv, hnext⟩
        · exact .inl hend
        · obtain ⟨stop, hstop⟩ := hconverged (by omega) hnext
          exact .inr ⟨step, next, stop, hadv, hstop, hnext⟩)
      limit 0 i [] (by omega) hstart
    obtain rfl := hP.length_eq
    exact ⟨j, past, limit, hrun.trans hbisect, hsteps, hlimit, hk, hP, hend⟩

/-- **The width of the interval that a search leaves.** Between bounds of at most 59 digits and with
a tolerance of at most 28, all with exponents between -1000 and 1000, a search never fails,
whatever is answered. It ends when its steps are used up, where halving moves no bound, or when
the condition of its tolerance holds; and where that holds, the width is no more than the
tolerance allows, up to the roundings of the condition: of the width to sixty digits and, for a
relative tolerance, of the magnitude and of the product to 28. If none of these needs rounding,
the width is no more than the tolerance allows. -/
theorem search_converged_width (i : Interval) (hlow : i.low.coefficient < 10 ^ 59)
    (hhigh : i.high.coefficient < 10 ^ 59)
    (hlowExponent : -1000 ≤ i.low.exponent ∧ i.low.exponent ≤ 1000)
    (hhighExponent : -1000 ≤ i.high.exponent ∧ i.high.exponent ≤ 1000)
    (epsilon : Number) (hpos : 0 < epsilon.toRat) (hfits : epsilon.coefficient < 10 ^ 28)
    (hexponent : -1000 ≤ epsilon.exponent ∧ epsilon.exponent ≤ 1000) (relative : Bool)
    (iterations : Option ℕ) (predicate : Predicate) :
    ∃ (j : Interval) (past : Transcript) (limit : ℕ),
      (searchInterval i ⟨iterations.map Nat.cast, some (.decimal (.finite epsilon)), relative⟩
        (consult predicate)).runOn [] = (.ok j, past) ∧
      (search i ⟨iterations.map Nat.cast, some (.decimal (.finite epsilon)), relative⟩
        (consult predicate)).runOn [] = (.ok j.high, past) ∧
      j.low = lastAnswered false past i.low ∧ j.high = lastAnswered true past i.high ∧
      StopRule.Checked.steps ⟨iterations, some (.finite epsilon), relative⟩ i = .ok limit ∧
      past.length ≤ limit ∧
      (past.length = limit ∨ j.Exhausted ∨
        StopRule.Checked.converged ⟨iterations, some (.finite epsilon), relative⟩ j = .ok true) ∧
      (StopRule.Checked.converged ⟨iterations, some (.finite epsilon), relative⟩ j = .ok true →
        (j.high.toRat - j.low.toRat) * (1 - 1 / 10 ^ 59) ≤
          j.allowance relative epsilon.toRat * roundingSlack relative ∧
        (j.Unrounded relative epsilon.toRat →
          j.high.toRat - j.low.toRat ≤ j.allowance relative epsilon.toRat)) := by
  obtain ⟨j, past, limit, hrun, hsteps, hlimit, hlength, hP, hend⟩ :=
    runOn_searchInterval_tolerance (.start hlow hhigh hlowExponent hhighExponent) hpos hfits
      hexponent relative iterations predicate
  obtain ⟨stop, hstop, hsound⟩ := StopRule.Checked.converged_spec
    (hP.measured (hlength.trans hlimit) hpos hfits hexponent) iterations relative
  refine ⟨j, past, limit, hrun, ?_, hP.low_eq, hP.high_eq, hsteps, hlength, hend, fun hheld => ?_⟩
  · rw [runOn_search, hrun]
    rfl
  · rw [hstop, Except.ok.injEq] at hheld
    exact hsound hheld

/-- Between `-1` and `3`, with a relative tolerance of one half and every point succeeding: the
tolerance is met between `-1` and `-0.75`. -/
theorem search_converged_width_half :
    ∃ (j : Interval) (past : Transcript),
      (search ⟨.ofInt (-1), .ofInt 3, by decide⟩
        ⟨none, some (.decimal (.finite ⟨false, 5, -1⟩)), true⟩
        (consult fun _ _ => true)).runOn [] = (.ok j.high, past) ∧
      j.low = ⟨true, 1, 0⟩ ∧ j.high = ⟨true, 75, -2⟩ ∧
      StopRule.Checked.converged ⟨none, some (.finite ⟨false, 5, -1⟩), true⟩ j = .ok true ∧
      (j.high.toRat - j.low.toRat) * (1 - 1 / 10 ^ 59) ≤
        j.allowance true (Number.toRat ⟨false, 5, -1⟩) * roundingSlack true := by
  have hbounds : (((searchInterval ⟨.ofInt (-1), .ofInt 3, by decide⟩
      ⟨none, some (.decimal (.finite ⟨false, 5, -1⟩)), true⟩
      (consult fun _ _ => true)).runOn []).1.toOption.map fun j => (j.low, j.high)) =
        some (⟨true, 1, 0⟩, ⟨true, 75, -2⟩) := by decide +kernel
  obtain ⟨⟨low, high, hordered⟩, past, limit, hinterval, hrun, -, -, -, -, -, hsound⟩ :=
    search_converged_width ⟨.ofInt (-1), .ofInt 3, by decide⟩ (by decide) (by decide) (by decide)
      (by decide) ⟨false, 5, -1⟩ (Number.toRat_pos rfl (by decide)) (by decide) (by decide) true none
      (fun _ _ => true)
  rw [Option.map_none] at hinterval
  rw [hinterval] at hbounds
  obtain ⟨rfl, rfl⟩ := Prod.mk.inj (Option.some.inj hbounds)
  have hheld : StopRule.Checked.converged ⟨none, some (.finite ⟨false, 5, -1⟩), true⟩
      ⟨⟨true, 1, 0⟩, ⟨true, 75, -2⟩, by decide⟩ = .ok true := by decide +kernel
  exact ⟨_, past, hrun, rfl, rfl, hheld, (hsound hheld).1⟩

/-- **Rounding can hide what is missing to convergence.** Between `-1E-70` and `1` the width is
rounded to `1` and meets an absolute tolerance of `1`, and between `-1E-40` and a bound of 29
digits the magnitude of that bound is rounded up and meets a relative tolerance of `1`; both
searches are over before their first step, and both widths are larger than allowed. -/
theorem search_converged_too_wide :
    (∃ i : Interval,
      Interval.ofFigures (.decimal (.finite ⟨true, 1, -70⟩)) (.decimal (.finite ⟨false, 1, 0⟩)) =
        .ok i ∧
      StopRule.Checked.converged ⟨none, some (.finite ⟨false, 1, 0⟩), false⟩ i = .ok true ∧
      (search i { tolerance := some (.decimal (.finite ⟨false, 1, 0⟩)) }
        (consult fun _ _ => false)).runOn [] = (.ok i.high, []) ∧
      1 < i.high.toRat - i.low.toRat) ∧
    (∃ i : Interval,
      Interval.ofFigures (.decimal (.finite ⟨true, 1, -40⟩))
        (.decimal (.finite ⟨false, 10 ^ 28 + 6, -28⟩)) = .ok i ∧
      StopRule.Checked.converged ⟨some 1, some (.finite ⟨false, 1, 0⟩), true⟩ i = .ok true ∧
      (search i ⟨some 1, some (.decimal (.finite ⟨false, 1, 0⟩)), true⟩
        (consult fun _ _ => false)).runOn [] = (.ok i.high, []) ∧
      1 * |i.high.toRat| < i.high.toRat - i.low.toRat) := by
  refine ⟨⟨⟨⟨true, 1, -70⟩, ⟨false, 1, 0⟩, by decide⟩, rfl, rfl, rfl, ?_⟩,
    ⟨⟨⟨true, 1, -40⟩, ⟨false, 10 ^ 28 + 6, -28⟩, by decide⟩, rfl, rfl, rfl, ?_⟩⟩
  · norm_num [Number.toRat, Number.signedCoefficient]
  · norm_num [Number.toRat, Number.signedCoefficient, abs_of_pos]

end MemoryLimit
