import Mathlib
import MemoryLimit.Proofs.Bisection.Run
import MemoryLimit.Proofs.Bisection.Transcript

/-!
# Exact halving

As long as sixty digits suffice, a bisection computes without any rounding: it visits the points
that the halving of rational intervals visits, for every sequence of answers. After `k` steps
the bounds are whole multiples of the `k`-th power of one half, so `k` more digits than the
bounds have are enough.

## Main definitions

* `Halving.bounds`, `Halving.points` — the halving of rational intervals.
* `Number.OnGrid`, `Interval.Grid` — a bound, and both, after a number of exact halvings.

## Main statements

* `Interval.Grid.midpoint` — one exact step.
* `search_refines_halving` — a search is exact halving.
-/
namespace MemoryLimit

open Number (ten_zpow_pos)

/-! ## The halving of rational intervals -/

namespace Halving

/-- The half of an interval: the lower one if the midpoint succeeded. -/
def half (b : ℚ × ℚ) (succeeded : Bool) : ℚ × ℚ :=
  if succeeded then (b.1, (b.1 + b.2) / 2) else ((b.1 + b.2) / 2, b.2)

/-- The bounds that are left after a sequence of answers. -/
def bounds (b : ℚ × ℚ) (answers : List Bool) : ℚ × ℚ :=
  answers.foldl half b

/-- The midpoints that are visited with a sequence of answers. -/
def points (b : ℚ × ℚ) : List Bool → List ℚ
  | [] => []
  | answer :: rest => (b.1 + b.2) / 2 :: points (half b answer) rest

@[simp] theorem bounds_append (b : ℚ × ℚ) (answers : List Bool) (answer : Bool) :
    bounds b (answers ++ [answer]) = half (bounds b answers) answer := by
  simp [bounds]

theorem points_append (b : ℚ × ℚ) (answers : List Bool) (answer : Bool) :
    points b (answers ++ [answer]) =
      points b answers ++ [((bounds b answers).1 + (bounds b answers).2) / 2] := by
  induction answers generalizing b with
  | nil => rfl
  | cons first rest ih => simp [points, ih, bounds]

/-- Every answer halves the width. -/
theorem width_bounds (b : ℚ × ℚ) (answers : List Bool) :
    (bounds b answers).2 - (bounds b answers).1 = (b.2 - b.1) / 2 ^ answers.length := by
  induction answers using List.reverseRecOn with
  | nil => simp [bounds]
  | append_singleton answers answer ih =>
    have hhalf : (half (bounds b answers) answer).2 - (half (bounds b answers) answer).1 =
        ((bounds b answers).2 - (bounds b answers).1) / 2 := by
      cases answer <;> simp only [half, if_true, Bool.false_eq_true, if_false] <;> ring
    rw [bounds_append, hhalf, ih, List.length_append, List.length_singleton, pow_succ, div_div]

/-- The bounds stay within the interval. -/
theorem bounds_mem {b : ℚ × ℚ} (h : b.1 ≤ b.2) (answers : List Bool) :
    b.1 ≤ (bounds b answers).1 ∧ (bounds b answers).1 ≤ (bounds b answers).2 ∧
      (bounds b answers).2 ≤ b.2 := by
  induction answers using List.reverseRecOn with
  | nil => exact ⟨le_rfl, h, le_rfl⟩
  | append_singleton answers answer ih =>
    obtain ⟨hlow, hmid, hhigh⟩ := ih
    rw [bounds_append]
    cases answer <;> simp only [half, if_true, Bool.false_eq_true, if_false] <;>
      refine ⟨?_, ?_, ?_⟩ <;> linarith

/-- The lower bound lies a whole number of final widths above the first one. -/
theorem exists_lower_eq (b : ℚ × ℚ) (answers : List Bool) :
    ∃ a : ℤ, (bounds b answers).1 = b.1 + a * ((b.2 - b.1) / 2 ^ answers.length) := by
  induction answers using List.reverseRecOn with
  | nil => exact ⟨0, by simp [bounds]⟩
  | append_singleton answers answer ih =>
    obtain ⟨a, ha⟩ := ih
    have hwidth := width_bounds b answers
    have hhalf : (b.2 - b.1) / 2 ^ answers.length =
        2 * ((b.2 - b.1) / 2 ^ (answers.length + 1)) := by
      rw [pow_succ]
      field_simp
    rw [bounds_append, List.length_append, List.length_singleton]
    rw [hhalf] at ha hwidth
    cases answer with
    | true =>
      refine ⟨2 * a, ?_⟩
      simp only [half, if_true]
      rw [ha]
      push_cast
      ring
    | false =>
      refine ⟨2 * a + 1, ?_⟩
      simp only [half, Bool.false_eq_true, if_false]
      push_cast
      linarith

/-- Between whole numbers, both bounds stay whole while the width can be halved in whole numbers. -/
theorem exists_upper_eq_intCast {b : ℚ × ℚ} {low width : ℤ} {n : ℕ} (hlow : b.1 = low)
    (hwidth : b.2 - b.1 = width * 2 ^ n) {answers : List Bool} (hlength : answers.length ≤ n) :
    ∃ a : ℤ, (bounds b answers).2 = a := by
  obtain ⟨a, ha⟩ := exists_lower_eq b answers
  have hfinal : (b.2 - b.1) / 2 ^ answers.length = width * 2 ^ (n - answers.length) := by
    rw [hwidth, div_eq_iff (by positivity), mul_assoc, ← pow_add, Nat.sub_add_cancel hlength]
  have hupper := width_bounds b answers
  rw [hfinal] at ha hupper
  refine ⟨low + (a + 1) * (width * 2 ^ (n - answers.length)), ?_⟩
  push_cast
  rw [← hlow]
  linarith

end Halving

/-! ## Bounds on a grid -/

/-- A whole multiple of a power of one half needs no more digits than it has, and one more for each
halving. -/
theorem representable_of_mul_two_pow {p k : ℕ} {v : ℚ} {a : ℤ} (hgrid : v * 2 ^ k = a)
    (hsmall : |v| * 10 ^ k ≤ 10 ^ p) : Representable p v := by
  have hten : (10 : ℚ) ^ k = 2 ^ k * 5 ^ k := by rw [← mul_pow]; norm_num
  have hcoefficient : ((a * 5 ^ k : ℤ) : ℚ) = v * 10 ^ k := by
    push_cast
    rw [← hgrid, hten]
    ring
  refine ⟨a * 5 ^ k, -(k : ℤ), ?_, ?_⟩
  · have habs : |((a * 5 ^ k : ℤ) : ℚ)| ≤ 10 ^ p := by
      rwa [hcoefficient, abs_mul, abs_of_pos (by positivity : (0 : ℚ) < 10 ^ k)]
    exact_mod_cast habs
  · rw [hcoefficient, zpow_neg, zpow_natCast, mul_assoc, mul_inv_cancel₀ (by positivity), mul_one]

/-- A bound after `k` exact halvings of an interval of whole numbers below `10 ^ d`: a whole
multiple of the `k`-th power of one half, written with at most `k` places. -/
structure Number.OnGrid (d k : ℕ) (x : Number) : Prop where
  places : -(k : ℤ) ≤ x.exponent
  multiple : ∃ a : ℤ, x.toRat * 2 ^ k = a
  lt : |x.toRat| < 10 ^ d

theorem Number.OnGrid.succ {d k : ℕ} {x : Number} (h : x.OnGrid d k) : x.OnGrid d (k + 1) where
  places := by
    have := h.places
    push_cast
    omega
  multiple := by
    obtain ⟨a, ha⟩ := h.multiple
    exact ⟨2 * a, by push_cast; rw [← ha]; ring⟩
  lt := h.lt

/-- Whole numbers are on the coarsest grid. -/
theorem Number.onGrid_zero {d : ℕ} {x : Number} (hplaces : 0 ≤ x.exponent)
    (hwhole : ∃ a : ℤ, x.toRat = a) (hlt : |x.toRat| < 10 ^ d) : x.OnGrid d 0 where
  places := by simpa using hplaces
  multiple := by simpa using hwhole
  lt := hlt

namespace Interval

/-- Both bounds after `k` exact halvings of an interval of whole numbers below `10 ^ d`. -/
structure Grid (d k : ℕ) (i : Interval) : Prop where
  low : i.low.OnGrid d k
  high : i.high.OnGrid d k

variable {i : Interval} {d k : ℕ}

theorem Grid.bounded (h : i.Grid d k) : i.Bounded (-k) (10 ^ d) :=
  ⟨h.low.places, h.high.places, h.low.lt.le, h.high.lt.le⟩

/-- The sum of two bounds on a grid, and its half, need no rounding while the digits suffice. -/
theorem Grid.representable (h : i.Grid d k) (hdigits : d + k + 1 ≤ 60) :
    Representable 60 (i.low.toRat + i.high.toRat) ∧
      Representable 60 ((i.low.toRat + i.high.toRat) / 2) := by
  obtain ⟨a, ha⟩ := h.low.multiple
  obtain ⟨b, hb⟩ := h.high.multiple
  have hsum : |i.low.toRat + i.high.toRat| ≤ 2 * 10 ^ d :=
    (abs_add_le _ _).trans (by linarith [h.low.lt, h.high.lt])
  have hpow : (10 : ℚ) ^ d * 10 ^ (k + 1) ≤ 10 ^ 60 := by
    rw [← pow_add]
    exact pow_le_pow_right₀ (by norm_num) hdigits
  constructor
  · refine representable_of_mul_two_pow (k := k) (a := a + b)
      (by push_cast; rw [← ha, ← hb]; ring) ?_
    calc |i.low.toRat + i.high.toRat| * 10 ^ k ≤ 2 * 10 ^ d * 10 ^ k := by gcongr
      _ ≤ 10 ^ d * 10 ^ (k + 1) := by
        rw [pow_succ]
        nlinarith [(by positivity : (0 : ℚ) < 10 ^ d * 10 ^ k)]
      _ ≤ 10 ^ 60 := hpow
  · refine representable_of_mul_two_pow (k := k + 1) (a := a + b)
      (by push_cast; rw [← ha, ← hb]; ring) ?_
    rw [abs_div, abs_two]
    calc |i.low.toRat + i.high.toRat| / 2 * 10 ^ (k + 1) ≤ 10 ^ d * 10 ^ (k + 1) := by
          gcongr
          linarith
      _ ≤ 10 ^ 60 := hpow

/-- **While the digits suffice, a midpoint is exact**, and either half lies on the next finer
grid. -/
theorem Grid.midpoint (h : i.Grid d k) (hdigits : d + k + 1 ≤ 60) :
    ∃ m, i.midpoint = .ok m ∧ m.toRat = (i.low.toRat + i.high.toRat) / 2 ∧
      ∀ succeeded, ∃ left, i.narrow succeeded = .ok left ∧
        left.low = (if succeeded then i.low else m) ∧
        left.high = (if succeeded then m else i.high) ∧ left.Grid d (k + 1) := by
  obtain ⟨hsum, hhalf⟩ := h.representable hdigits
  have hmin : context.minUnit ≤ -(k : ℤ) - 1 := by
    have : context.minUnit = -1000058 := rfl
    omega
  have hmax : -(k : ℤ) ≤ context.maxExponent := by
    have : context.maxExponent = 999999 := rfl
    omega
  have hmost : 2 * (10 : ℚ) ^ d ≤ 10 ^ context.maxExponent := by
    have hexp : ((d + 1 : ℕ) : ℤ) ≤ context.maxExponent := by
      have : context.maxExponent = 999999 := rfl
      omega
    calc 2 * (10 : ℚ) ^ d ≤ 10 ^ (d + 1) := by
          rw [pow_succ]
          linarith [(by positivity : (0 : ℚ) < 10 ^ d)]
      _ = 10 ^ ((d + 1 : ℕ) : ℤ) := (zpow_natCast _ _).symm
      _ ≤ 10 ^ context.maxExponent := zpow_le_zpow_right₀ (by norm_num) hexp
  obtain ⟨s, m, hm, -, hs, hmid⟩ := midpoint_spec h.bounded hmin hmax hmost
  have hexact := midpoint_eq hs hmid.rounds hsum hhalf
  have hle := i.toRat_le
  have hgrid : m.OnGrid d (k + 1) := by
    obtain ⟨a, ha⟩ := h.low.multiple
    obtain ⟨b, hb⟩ := h.high.multiple
    refine ⟨?_, ⟨a + b, ?_⟩, ?_⟩
    · have := hmid.least_le
      push_cast
      omega
    · rw [hexact]
      push_cast
      rw [← ha, ← hb]
      ring
    · have hlow := abs_lt.1 h.low.lt
      have hhigh := abs_lt.1 h.high.lt
      rw [hexact, abs_lt]
      constructor <;> linarith
  refine ⟨m, hm, hexact, fun succeeded => ?_⟩
  obtain ⟨left, hnarrow, hl, hr⟩ := narrow_spec hm (by linarith) (by linarith) succeeded
  obtain ⟨hleft, hright⟩ :=
    forall_of_half (P := fun x => x.OnGrid d (k + 1)) hl hr h.low.succ h.high.succ hgrid
  exact ⟨left, hnarrow, hl, hr, hleft, hright⟩

/-- While the digits suffice, halving moves no bound only where both bounds coincide. -/
theorem Grid.exhausted_iff (h : i.Grid d k) (hdigits : d + k + 1 ≤ 60) :
    i.Exhausted ↔ i.low.toRat = i.high.toRat := by
  obtain ⟨m, hm, hexact, -⟩ := h.midpoint hdigits
  have hbound : i.hasBound m = true ↔ i.low.toRat = i.high.toRat := by
    rw [hasBound_iff, hexact]
    constructor
    · rintro (hlow | hhigh) <;> linarith
    · intro heq
      exact .inl (by linarith)
  rw [← hbound]
  constructor
  · rintro ⟨m', hm', hb⟩
    rw [hm, Except.ok.injEq] at hm'
    rwa [hm']
  · intro hb
    exact ⟨m, hm, hb⟩

/-- Exact halving comes to its end only for a width of zero. -/
theorem Grid.width_eq_zero (h : i.Grid d k) (hdigits : d + k + 1 ≤ 60) (hend : i.Exhausted) {w : ℚ}
    (hw : i.high.toRat - i.low.toRat = w / 2 ^ k) : w = 0 := by
  rw [(h.exhausted_iff hdigits).1 hend, sub_self, eq_comm, div_eq_zero_iff] at hw
  exact hw.resolve_right (by positivity)

/-- **One exact step**: unless both bounds coincide, the exact midpoint lies strictly inside. -/
theorem Grid.step (h : i.Grid d k) (hdigits : d + k + 1 ≤ 60) :
    i.Exhausted ∨ i.low.toRat < i.high.toRat ∧ ∃ m, i.midpoint = .ok m ∧ i.hasBound m = false ∧
      m.toRat = (i.low.toRat + i.high.toRat) / 2 ∧
      ∀ succeeded, ∃ left, i.narrow succeeded = .ok left ∧
        left.low = (if succeeded then i.low else m) ∧
        left.high = (if succeeded then m else i.high) ∧ left.Grid d (k + 1) := by
  rcases i.toRat_le.eq_or_lt with heq | hlt
  · exact .inl ((h.exhausted_iff hdigits).2 heq)
  · obtain ⟨m, hm, hexact, hnarrow⟩ := h.midpoint hdigits
    refine .inr ⟨hlt, m, hm, ?_, hexact, hnarrow⟩
    rw [← Bool.not_eq_true]
    intro hb
    exact hlt.ne ((h.exhausted_iff hdigits).1 ⟨m, hm, hb⟩)

end Interval

/-! ## A run on the grid -/

/-- An interval and a transcript of `k` questions belong to one exact bisection of an interval. -/
structure Halved (predicate : Predicate) (d : ℕ) (low high : Number) (k : ℕ) (i : Interval)
    (past : Transcript) : Prop where
  grid : i.Grid d k
  length_eq : past.length = k
  low_eq : i.low = lastAnswered false past low
  high_eq : i.high = lastAnswered true past high
  bounds_eq : Halving.bounds (low.toRat, high.toRat) (past.map (·.2)) = (i.low.toRat, i.high.toRat)
  points_eq : past.map (·.1.toRat) = Halving.points (low.toRat, high.toRat) (past.map (·.2))
  answered : past.AnsweredBy predicate
  moved : 0 < k → low.toRat < high.toRat

variable {predicate : Predicate} {d k : ℕ} {low high : Number} {i : Interval} {past : Transcript}

theorem Halved.start (h : i.Grid d 0) : Halved predicate d i.low i.high 0 i [] where
  grid := h
  length_eq := rfl
  low_eq := rfl
  high_eq := rfl
  bounds_eq := rfl
  points_eq := rfl
  answered := by simp [Transcript.AnsweredBy]
  moved := by simp

theorem Halved.width_eq (h : Halved predicate d low high k i past) :
    i.high.toRat - i.low.toRat = (high.toRat - low.toRat) / 2 ^ k := by
  have hwidth := Halving.width_bounds (low.toRat, high.toRat) (past.map (·.2))
  rwa [h.bounds_eq, List.length_map, h.length_eq] at hwidth

/-- **One step of an exact bisection**: it ends where both bounds coincide, and else asks the exact
midpoint. -/
theorem Halved.step (h : Halved predicate d low high k i past) (hdigits : d + k + 1 ≤ 60) :
    i.Exhausted ∨ ∃ step next, Advances (consult predicate) (fun _ => pure ()) k i past step next ∧
      Halved predicate d low high (k + 1) step.left next := by
  rcases h.grid.step hdigits with hend | ⟨hlt, m, hm, hinside, hexact, hnarrow⟩
  · exact .inl hend
  set answer := predicate past m with hanswer
  obtain ⟨left, hleft, hl, hr, hgrid⟩ := hnarrow answer
  refine .inr ⟨⟨k + 1, m, answer, left⟩, past ++ [(m, answer)],
    ⟨rfl, hm, hinside, hleft, _, runOn_consult predicate m past, rfl⟩, ?_⟩
  refine ⟨hgrid, by simp [h.length_eq], ?_, ?_, ?_, ?_, h.answered.append m, ?_⟩
  · rw [hl, lastAnswered_append, ← h.low_eq]
    cases answer <;> rfl
  · rw [hr, lastAnswered_append, ← h.high_eq]
  · rw [List.map_append, List.map_singleton, Halving.bounds_append, h.bounds_eq, hl, hr]
    cases answer <;> simp [Halving.half, hexact]
  · rw [List.map_append, List.map_singleton, List.map_append, List.map_singleton,
      Halving.points_append, h.bounds_eq, h.points_eq, hexact]
  · intro _
    have hwidth := h.width_eq
    have hpos : 0 < (high.toRat - low.toRat) / 2 ^ k := by linarith
    have := (div_pos_iff_of_pos_right (by positivity)).1 hpos
    linarith

/-- **A run of an exact bisection** takes all its steps, unless the bounds coincide from the
start. -/
theorem runOn_bisect_grid (h : i.Grid d 0) (predicate : Predicate) {n : ℕ} (hdigits : d + n ≤ 60) :
    ∃ j past, (bisect (consult predicate) (fun _ => pure ()) (fun _ => pure false) n 0 i).runOn [] =
        (.ok j, past) ∧
      Halved predicate d i.low i.high (if i.low.toRat = i.high.toRat then 0 else n) j past := by
  have hstep : ∀ k j past, k < n → Halved predicate d i.low i.high k j past → j.Exhausted ∨
      ∃ step next stop, Advances (consult predicate) (fun _ => pure ()) k j past step next ∧
        (pure false : Except Failure Bool) = .ok stop ∧
        Halved predicate d i.low i.high (k + 1) step.left next := by
    intro k j past hk hP
    rcases hP.step (by omega) with hstop | ⟨step, next, hadv, hnext⟩
    · exact .inl hstop
    · exact .inr ⟨step, next, false, hadv, rfl, hnext⟩
  obtain ⟨k, j, past, hrun, hk, hP, hend⟩ := bisect_induction (consult predicate)
    (fun _ => pure ()) (fun _ => pure false) (Halved predicate d i.low i.high) n hstep
    n 0 i [] (by omega) (.start h)
  refine ⟨j, past, hrun, ?_⟩
  suffices hk : (if i.low.toRat = i.high.toRat then 0 else n) = k by rwa [hk]
  split <;> rename_i heq
  · by_contra hne
    exact (hP.moved (by omega)).ne heq
  · -- the width is not zero, so nothing but the count ends the run
    rcases hk.eq_or_lt with hk | hk
    · exact hk.symm
    · rcases hend with hlast | hexhausted | hdone
      · exact hlast.symm
      · have hzero := hP.grid.width_eq_zero (by omega) hexhausted hP.width_eq
        exact absurd (by linarith) heq
      · cases hdone

/-! ## Searches -/

/-- The interval between two whole numbers in order. -/
theorem Interval.ofFigures_integer {low high : ℤ} (h : low ≤ high) :
    ∃ i, Interval.ofFigures (.integer low) (.integer high) = .ok i ∧
      i.low = .ofInt low ∧ i.high = .ofInt high := by
  have hle : (Number.ofInt low).toRat ≤ (Number.ofInt high).toRat := by
    rw [Number.toRat_ofInt, Number.toRat_ofInt]
    exact_mod_cast h
  exact ⟨⟨.ofInt low, .ofInt high, (Number.le_iff _ _).2 hle⟩, Interval.between?_eq_ok hle, rfl,
    rfl⟩

theorem Number.onGrid_ofInt {d : ℕ} {i : ℤ} (h : |i| < 10 ^ d) : (Number.ofInt i).OnGrid d 0 :=
  Number.onGrid_zero le_rfl ⟨i, toRat_ofInt i⟩ (by rw [toRat_ofInt]; exact_mod_cast h)

/-- The interval between two natural numbers of at most `d` digits lies on the whole numbers. -/
theorem Interval.ofFigures_grid {low high : ℤ} {d : ℕ} (hlow : 0 ≤ low) (hle : low ≤ high)
    (hhigh : high < 10 ^ d) :
    ∃ i, Interval.ofFigures (.integer low) (.integer high) = .ok i ∧ i.Grid d 0 ∧
      i.low.toRat = low ∧ i.high.toRat = high := by
  obtain ⟨i, hi, hil, hih⟩ := Interval.ofFigures_integer hle
  have hlowlt : |low| < 10 ^ d := abs_lt.2 ⟨by linarith, by linarith⟩
  have hhighlt : |high| < 10 ^ d := abs_lt.2 ⟨by linarith, by linarith⟩
  refine ⟨i, hi, ⟨hil ▸ Number.onGrid_ofInt hlowlt, hih ▸ Number.onGrid_ofInt hhighlt⟩, ?_, ?_⟩
  · rw [hil, Number.toRat_ofInt]
  · rw [hih, Number.toRat_ofInt]

/-- **A search refines the halving of rational intervals.** Between whole numbers of at most `d`
digits, `n` steps with `d + n ≤ 59` are exact: the predicate is asked exactly at the points of
exact halving, `n` times unless the bounds coincide; the answer is the last point that
succeeded, or the upper bound, and lies above the last point that failed, or the lower bound, by
exactly the `2 ^ n`-th part of the width. So it is that close to the threshold of a predicate
that has one. -/
theorem search_refines_halving (d n : ℕ) (low high : ℤ) (hle : low ≤ high) (hlow : |low| < 10 ^ d)
    (hhigh : |high| < 10 ^ d) (hdigits : d + n ≤ 59) (predicate : Predicate) :
    ∃ (i : Interval) (r : Number) (past : Transcript),
      Interval.ofFigures (.integer low) (.integer high) = .ok i ∧
      (search i { iterations := some (n : ℤ) } (consult predicate)).runOn [] = (.ok r, past) ∧
      past.length = (if low = high then 0 else n) ∧
      past.map (·.1.toRat) = Halving.points (low, high) (past.map (·.2)) ∧
      (∃ l : Number, l = lastAnswered false past (.ofInt low) ∧
        r = lastAnswered true past (.ofInt high) ∧
        Halving.bounds (low, high) (past.map (·.2)) = (l.toRat, r.toRat) ∧
        low ≤ l.toRat ∧ l.toRat ≤ r.toRat ∧ r.toRat ≤ high ∧
        r.toRat - l.toRat = (high - low) / 2 ^ n) ∧
      ∀ b : ℚ, (∀ before x, predicate before x = decide (b ≤ x.toRat)) → low < b → b ≤ high →
        b ≤ r.toRat ∧ r.toRat - b < (high - low) / 2 ^ n := by
  obtain ⟨i, hi, hil, hih⟩ := Interval.ofFigures_integer hle
  have hgrid : i.Grid d 0 := ⟨hil ▸ Number.onGrid_ofInt hlow, hih ▸ Number.onGrid_ofInt hhigh⟩
  obtain ⟨j, past, hrun, hP⟩ := runOn_bisect_grid hgrid predicate (n := n) (by omega)
  have hcast : (i.low.toRat = i.high.toRat) = (low = high) := by
    rw [hil, hih, Number.toRat_ofInt, Number.toRat_ofInt]
    exact propext (by exact_mod_cast Iff.rfl)
  simp only [hcast] at hP
  have hbounds := hP.bounds_eq
  have hpoints := hP.points_eq
  have hwidth := hP.width_eq
  rw [hil, hih, Number.toRat_ofInt, Number.toRat_ofInt] at hbounds hpoints hwidth
  have hwidthn : j.high.toRat - j.low.toRat = (high - low) / 2 ^ n := by
    rw [hwidth]
    split <;> rename_i heq
    · rw [heq, sub_self, zero_div, zero_div]
    · rfl
  have hmem := Halving.bounds_mem (b := (low, high)) (show (low : ℚ) ≤ high by exact_mod_cast hle)
    (past.map (·.2))
  rw [hbounds] at hmem
  refine ⟨i, j.high, past, hi, ?_, hP.length_eq, hpoints, ?_, ?_⟩
  · rw [runOn_search_iterations, hrun]
    rfl
  · exact ⟨j.low, by rw [hP.low_eq, hil], by rw [hP.high_eq, hih], hbounds, hmem.1, hmem.2.1,
      hmem.2.2, hwidthn⟩
  · intro b hthreshold hbl hbh
    have hanswer : ∀ entry ∈ past, entry.2 = decide (b ≤ entry.1.toRat) := by
      intro entry hentry
      obtain ⟨before, hbefore⟩ := hP.answered entry hentry
      rw [hbefore, hthreshold]
    have hsucceeds : b ≤ j.high.toRat := by
      rw [hP.high_eq]
      rcases lastAnswered_mem true past i.high with hstart | hasked
      · rwa [hstart, hih, Number.toRat_ofInt]
      · exact of_decide_eq_true (hanswer _ hasked).symm
    have hfails : j.low.toRat < b := by
      rw [hP.low_eq]
      rcases lastAnswered_mem false past i.low with hstart | hasked
      · rwa [hstart, hil, Number.toRat_ofInt]
      · exact not_le.1 (of_decide_eq_false (hanswer _ hasked).symm)
    exact ⟨hsucceeds, by linarith⟩

/-- Two steps between `0` and `4`, with the threshold `3`. -/
theorem search_refines_halving_at_three :
    ∃ (i : Interval) (r : Number) (past : Transcript),
      Interval.ofFigures (.integer 0) (.integer 4) = .ok i ∧
      (search i { iterations := some 2 } (consult fun _ x => decide (3 ≤ x.toRat))).runOn [] =
        (.ok r, past) ∧
      past.length = 2 ∧ 3 ≤ r.toRat ∧ r.toRat - 3 < 1 := by
  obtain ⟨i, r, past, hi, hrun, hlength, -, -, hthreshold⟩ :=
    search_refines_halving 1 2 0 4 (by decide) (by decide) (by decide) (by decide)
      (fun _ x => decide (3 ≤ x.toRat))
  obtain ⟨hsucceeds, hclose⟩ := hthreshold 3 (fun _ _ => rfl) (by norm_num) (by norm_num)
  exact ⟨i, r, past, hi, by exact_mod_cast hrun, by simpa using hlength, hsucceeds, by linarith⟩

end MemoryLimit
