import Mathlib
import MemoryLimit.LimitSearch
import MemoryLimit.Proofs.Bisection.Halving
import MemoryLimit.Proofs.Text.Digits

/-!
# Trials bracket the boundary

Whatever the trials of a search end with, its interval stays between the last one that failed
and the last one that succeeded. That holds of the trial at twice the recorded limit as of those
of the bisection, so a search ends with an interval that is as narrow as its iterations make it,
and whose bounds are given or were tried.

## Main definitions

* `Bench.Yields` — a bench on which every trial between two bounds ends with a record.
* `Bracketed` — an interval between trials that failed and trials that succeeded.
* `Flanked` — all trials lie on the two sides of an interval, and on those that the ones before left.
* `Tried` — a trial at the midpoint of an interval, and the half that its outcome leaves.
* `Traced` — the outcomes of the trials are the answers by which an interval was halved.

## Main statements

* `Bracketed.split`, `Flanked.split` — a trial inside the interval leaves such a half.
* `runOn_startingInterval` — whatever the history says, the search starts from a bracketed interval.
* `Interval.Grid.tries` — one step of a search.
* `runOn_searchLimit_traced` — the trials of a search, and the interval that it ends with.
-/
namespace MemoryLimit

variable {σ : Type} {bench : Bench σ} {settings : Settings} {Good : Usage → Prop} {low high : ℤ}

/-! ## Events that can be written -/

/-- An integer of a search is far from being too long. -/
theorem Json.isWritable_integer {i : ℤ} (h : |i| < 10 ^ 60) : (integer i).isWritable = true := by
  have hnat : i.natAbs < 10 ^ 60 := by
    rw [Int.abs_eq_natAbs] at h
    exact_mod_cast h
  rw [isWritable, decide_eq_true_eq, Text.digitCount_le_iff (by decide)]
  exact hnat.trans_le (Nat.pow_le_pow_right (by decide) (by decide))

theorem isWritable_optionalText (text : Option RawText) : (optionalText text).isWritable = true := by
  cases text <;> rfl

/-- The message of an event is written if the integers in it can be. -/
theorem Event.isWritable_stepped (index : ℕ) (point : Number) (succeeded : Bool) (left : Interval) :
    (stepped index point succeeded left).message.isWritable = (Json.integer index).isWritable := by
  simp [message, Message.isWritable, Json.isWritable, Json.haveWritable]

theorem Event.isWritable_searchStarted (i : Interval) (iterations : ℤ) (workload : Option RawText) :
    (searchStarted i iterations workload).message.isWritable =
      (Json.integer iterations).isWritable := by
  simp [message, Message.isWritable, Json.isWritable, Json.haveWritable, isWritable_optionalText]

theorem Event.isWritable_searchFinished (boundary : ℤ) (trials : ℕ) (workload : Option RawText) :
    (searchFinished boundary trials workload).message.isWritable =
      ((Json.integer boundary).isWritable && (Json.integer trials).isWritable) := by
  simp [message, Message.isWritable, Json.isWritable, Json.haveWritable, isWritable_optionalText]

theorem Event.isWritable_intervalTightened (id : RawText) (top : Number) :
    (intervalTightened id top).message.isWritable = true := by
  simp [message, Message.isWritable, Json.isWritable, Json.haveWritable]

theorem Event.isWritable_historyStale (id : RawText) (recorded : ℤ) :
    (historyStale id recorded).message.isWritable = (Json.integer recorded).isWritable := by
  simp [message, Message.isWritable, Json.isWritable, Json.haveWritable]

/-- Whatever a recorded limit turns out to be worth, the event about it is written. -/
theorem Event.isWritable_shortcut (succeeded : Bool) (id : RawText) (top : Number) {recorded : ℤ}
    (h : |recorded| < 10 ^ 60) :
    (if succeeded then intervalTightened id top else historyStale id recorded).message.isWritable =
      true := by
  cases succeeded with
  | false => exact (isWritable_historyStale id recorded).trans (Json.isWritable_integer h)
  | true => exact isWritable_intervalTightened id top

/-! ## Benches -/

/-- Every trial between two bounds ends with a record for which `Good` holds; a record always has the
limit of its trial; and every event is reported whose integers can be written. -/
structure Bench.Yields (bench : Bench σ) (low high : ℤ) (Good : Usage → Prop) : Prop where
  run : ∀ limit s, low ≤ limit → limit ≤ high →
    ∃ usage t, (bench.run limit).runOn s = (.ok usage, t) ∧ Good usage
  limit_eq : ∀ limit s usage t, (bench.run limit).runOn s = (.ok usage, t) → usage.limit = limit
  report : ∀ event s, event.message.isWritable = true →
    ∃ t, (bench.report event).runOn s = (.ok (), t)

/-- A trial between the bounds adds its record to the others. -/
theorem runOn_trial (settings : Settings) (hbench : bench.Yields low high Good) {point : Number}
    (hlow : low ≤ point.toRat) (hhigh : point.toRat ≤ high) (s : σ) (trials : List Usage) :
    ∃ usage t, (trial bench settings point).runOn (s, trials) =
        (.ok (settings.succeeded usage), (t, trials ++ [usage])) ∧
      usage.limit = ⌊point.toRat⌋ ∧ Good usage := by
  have hfloor : ⌊point.toRat⌋ ≤ high := by
    exact_mod_cast (Int.floor_le point.toRat).trans hhigh
  rw [← Number.floor_eq] at hfloor ⊢
  have hle : low ≤ point.floor := by
    rw [Number.floor_eq]
    exact Int.le_floor.2 hlow
  obtain ⟨usage, t, hrun, hgood⟩ := hbench.run point.floor s hle hfloor
  refine ⟨usage, t, ?_, hbench.limit_eq _ _ _ _ hrun, hgood⟩
  rw [trial, Action.runOn_bind_ok (a := usage) (t := (t, trials))
    (by rw [Action.runOn_onFirst, hrun])]
  rfl

theorem runOn_report (hbench : bench.Yields low high Good) {event : Event}
    (hevent : event.message.isWritable = true) (s : σ) (trials : List Usage) :
    ∃ t, (Action.onFirst (bench.report event) : Action (σ × List Usage) Unit).runOn (s, trials) =
      (.ok (), (t, trials)) := by
  obtain ⟨t, ht⟩ := hbench.report event s hevent
  exact ⟨t, by rw [Action.runOn_onFirst, ht]⟩

/-- The end of a search is reported. -/
theorem Bench.Yields.reportEnd (hbench : bench.Yields low high Good) {boundary : ℤ} {count : ℕ}
    (hboundary : |boundary| < 10 ^ 60) (hcount : count < 10 ^ 60) (workload : Option RawText)
    (s : σ) : ∃ t, (bench.report (.searchFinished boundary count workload)).runOn s = (.ok (), t) := by
  apply hbench.report
  rw [Event.isWritable_searchFinished, Json.isWritable_integer hboundary,
    Json.isWritable_integer (by rw [Nat.abs_cast]; exact_mod_cast hcount)]
  rfl

/-! ## Brackets -/

/-- The interval lies within the bounds that were given. Its lower bound is one of them or the
point of a trial that failed, its upper bound is one of them or the point of a trial that
succeeded, and all limits that were tried lie between the bounds that were given. -/
structure Bracketed (settings : Settings) (Good : Usage → Prop) (low high : ℤ) (i : Interval)
    (trials : List Usage) : Prop where
  low_le : (low : ℚ) ≤ i.low.toRat
  le_high : i.high.toRat ≤ high
  low_eq : i.low.toRat = low ∨
    ∃ usage ∈ trials, settings.succeeded usage = false ∧ usage.limit = ⌊i.low.toRat⌋
  high_eq : i.high.toRat = high ∨
    ∃ usage ∈ trials, settings.succeeded usage = true ∧ usage.limit = ⌊i.high.toRat⌋
  trials : ∀ usage ∈ trials, low ≤ usage.limit ∧ usage.limit ≤ high ∧ Good usage

variable {i left : Interval} {trials : List Usage}

/-- The end of a search is reported, since its boundary lies between the bounds. -/
theorem Bracketed.reportEnd (h : Bracketed settings Good low high i trials)
    (hbench : bench.Yields low high Good) (hlow : 0 ≤ low) (hhigh : high < 10 ^ 60) {count : ℕ}
    (hcount : count < 10 ^ 60) (workload : Option RawText) (s : σ) :
    ∃ t, (bench.report (.searchFinished ⌈i.high.toRat⌉ count workload)).runOn s = (.ok (), t) := by
  have hceil : (low : ℚ) ≤ ⌈i.high.toRat⌉ :=
    (h.low_le.trans i.toRat_le).trans (Int.le_ceil i.high.toRat)
  have hlow' : low ≤ ⌈i.high.toRat⌉ := by exact_mod_cast hceil
  have hhigh' : ⌈i.high.toRat⌉ ≤ high := Int.ceil_le.2 h.le_high
  exact hbench.reportEnd (abs_lt.2 ⟨by omega, by omega⟩) hcount workload s

theorem Bracketed.start (hlow : i.low.toRat = low) (hhigh : i.high.toRat = high) :
    Bracketed settings Good low high i [] where
  low_le := hlow.ge
  le_high := hhigh.le
  low_eq := .inl hlow
  high_eq := .inl hhigh
  trials := by simp

/-- Without a success the upper bound is the one that was given. -/
theorem Bracketed.high_eq_of_failed (h : Bracketed settings Good low high i trials)
    (hfailed : ∀ usage ∈ trials, settings.succeeded usage = false) : i.high.toRat = high := by
  rcases h.high_eq with hstart | ⟨usage, hmem, hsucceeded, -⟩
  · exact hstart
  · simp [hfailed usage hmem] at hsucceeded

/-- **A trial inside the interval leaves a bracketed half.** -/
theorem Bracketed.split (h : Bracketed settings Good low high i trials) {point : Number}
    {usage : Usage} (hlow : i.low.toRat ≤ point.toRat) (hhigh : point.toRat ≤ i.high.toRat)
    (hlimit : usage.limit = ⌊point.toRat⌋) (hgood : Good usage)
    (hl : left.low = if settings.succeeded usage then i.low else point)
    (hr : left.high = if settings.succeeded usage then point else i.high) :
    Bracketed settings Good low high left (trials ++ [usage]) := by
  have htrials : ∀ other ∈ trials ++ [usage],
      low ≤ other.limit ∧ other.limit ≤ high ∧ Good other := by
    intro other hother
    rcases List.mem_append.1 hother with hold | hnew
    · exact h.trials other hold
    · rw [List.mem_singleton.1 hnew, hlimit]
      refine ⟨Int.le_floor.2 (h.low_le.trans hlow), ?_, hgood⟩
      exact_mod_cast (Int.floor_le point.toRat).trans (hhigh.trans h.le_high)
  have hkept : ∀ {P : Usage → Prop}, (∃ other ∈ trials, P other) →
      ∃ other ∈ trials ++ [usage], P other :=
    fun ⟨other, hother, hP⟩ => ⟨other, List.mem_append_left _ hother, hP⟩
  have hnew : usage ∈ trials ++ [usage] := by simp
  cases hsucceeded : settings.succeeded usage <;> rw [hsucceeded] at hl hr <;>
    simp only [if_true, Bool.false_eq_true, if_false] at hl hr
  · exact ⟨hl ▸ h.low_le.trans hlow, hr ▸ h.le_high, .inr ⟨usage, hnew, hsucceeded, hl ▸ hlimit⟩,
      hr ▸ h.high_eq.imp_right hkept, htrials⟩
  · exact ⟨hl ▸ h.low_le, hr ▸ hhigh.trans h.le_high, hl ▸ h.low_eq.imp_right hkept,
      .inr ⟨usage, hnew, hsucceeded, hr ▸ hlimit⟩, htrials⟩

/-- A later trial lies on the side that an earlier one leaves: not above a success, not below a
failure. -/
def Settings.Narrows (settings : Settings) (earlier later : Usage) : Prop :=
  if settings.succeeded earlier then later.limit ≤ earlier.limit else earlier.limit ≤ later.limit

theorem Settings.narrows_refl (settings : Settings) (usage : Usage) :
    settings.Narrows usage usage := by
  rw [Narrows]
  split <;> exact le_rfl

/-- The trials that failed lie at or below an interval, cut to whole bytes, and those that succeeded
at or above it; and each of them lay on the side that those before it left. -/
structure Flanked (settings : Settings) (i : Interval) (trials : List Usage) : Prop where
  le_low : ∀ usage ∈ trials, settings.succeeded usage = false → usage.limit ≤ ⌊i.low.toRat⌋
  high_le : ∀ usage ∈ trials, settings.succeeded usage = true → ⌊i.high.toRat⌋ ≤ usage.limit
  narrows : trials.Pairwise settings.Narrows

theorem Flanked.nil (settings : Settings) (i : Interval) : Flanked settings i [] :=
  ⟨by simp, by simp, .nil⟩

/-- **A trial inside the interval lies on the sides that all trials before it left**, and moves one
bound to its own point. -/
theorem Flanked.split (h : Flanked settings i trials) {point : Number} {usage : Usage}
    (hlow : i.low.toRat ≤ point.toRat) (hhigh : point.toRat ≤ i.high.toRat)
    (hlimit : usage.limit = ⌊point.toRat⌋)
    (hl : left.low = if settings.succeeded usage then i.low else point)
    (hr : left.high = if settings.succeeded usage then point else i.high) :
    Flanked settings left (trials ++ [usage]) := by
  have hlows : i.low.toRat ≤ left.low.toRat := by
    rw [hl]
    split
    · exact le_rfl
    · exact hlow
  have hhighs : left.high.toRat ≤ i.high.toRat := by
    rw [hr]
    split
    · exact hhigh
    · exact le_rfl
  constructor
  · intro other hother hfailed
    rcases List.mem_append.1 hother with hold | hnew
    · exact (h.le_low other hold hfailed).trans (Int.floor_le_floor hlows)
    · rw [List.mem_singleton.1 hnew] at hfailed ⊢
      rw [hl, hfailed, if_neg (by simp), hlimit]
  · intro other hother hsucceeded
    rcases List.mem_append.1 hother with hold | hnew
    · exact (Int.floor_le_floor hhighs).trans (h.high_le other hold hsucceeded)
    · rw [List.mem_singleton.1 hnew] at hsucceeded ⊢
      rw [hr, if_pos hsucceeded, hlimit]
  · refine List.pairwise_append.2 ⟨h.narrows, List.pairwise_singleton _ _, ?_⟩
    intro earlier hearlier later hlater
    rw [List.mem_singleton.1 hlater, Settings.Narrows, hlimit]
    cases hsucceeded : settings.succeeded earlier
    · exact (h.le_low earlier hearlier hsucceeded).trans (Int.floor_le_floor hlow)
    · exact (Int.floor_le_floor hhigh).trans (h.high_le earlier hearlier hsucceeded)

/-! ## The interval that the history leaves -/

/-- A usable record is one of a success, with a limit inside the interval. -/
theorem usableRecord?_eq_some {history : Option History} {workload : Option RawText} {id : RawText}
    {usage : Usage} (h : usableRecord? settings history workload i = some (id, usage)) :
    i.low.toRat < usage.limit ∧ usage.limit ≤ i.high.toRat := by
  simp only [usableRecord?, Option.bind_eq_bind, Option.bind_eq_some_iff] at h
  obtain ⟨_, -, _, -, other, -, hif⟩ := h
  split at hif
  · rename_i hcond
    cases hif
    simp only [Bool.and_eq_true, decide_eq_true_eq, Number.lt_iff, Number.le_iff,
      Number.toRat_ofInt] at hcond
    exact ⟨hcond.1.2, hcond.2⟩
  · cases hif

/-- Twice a limit is computed with few digits, but as a whole number, and not below the limit. -/
theorem mul_two_ofInt {limit : ℤ} (hpos : 0 < limit) (hlt : limit < 10 ^ 59) :
    ∃ top, Context.standard.mul (.ofInt limit) 2 = .ok top ∧ 0 ≤ top.exponent ∧
      (limit : ℚ) ≤ top.toRat := by
  have htwo : (2 : Number).toRat = 2 := Number.toRat_ofInt 2
  have hexponent : (Number.ofInt limit).exponent + (2 : Number).exponent = 0 := rfl
  have hposq : (0 : ℚ) < limit := by exact_mod_cast hpos
  have hltq : (limit : ℚ) ≤ 10 ^ (59 : ℤ) := by exact_mod_cast hlt.le
  have hbig : |(Number.ofInt limit).toRat * (2 : Number).toRat| ≤
      (10 : ℚ) ^ Context.standard.maxExponent := by
    rw [Number.toRat_ofInt, htwo, abs_of_pos (by linarith)]
    calc (limit : ℚ) * 2 ≤ 2 * 10 ^ (59 : ℤ) := by linarith
      _ ≤ 10 ^ (59 + 1 : ℤ) := Number.two_mul_ten_zpow_le 59
      _ ≤ 10 ^ Context.standard.maxExponent := zpow_le_zpow_right₀ (by norm_num) (by decide)
  obtain ⟨top, htop, hresult⟩ := Context.mul_spec (by decide : 0 < Context.standard.precision) 0
    (x := .ofInt limit) (y := 2) (by rw [hexponent]; decide) hexponent.ge (by decide) hbig
  refine ⟨top, htop, hresult.least_le, ?_⟩
  have hclose := hresult.rounds.close
  rw [Number.toRat_ofInt, htwo, abs_of_pos (by linarith : (0 : ℚ) < limit * 2)] at hclose
  have hprecision : (10 : ℚ) ^ (Context.standard.precision - 1) = 10 ^ 27 := rfl
  rw [hprecision] at hclose
  have := neg_abs_le (top.toRat - limit * 2)
  linarith

variable {d : ℕ}

/-- **Whatever the history says, the search starts from a bracketed interval** of whole numbers, not
wider than the one given, after one trial at most. -/
theorem runOn_startingInterval (history : Option History) (workload : Option RawText)
    (hbench : bench.Yields low high Good) (hgrid : i.Grid d 0) (hd : d ≤ 59) (hnonneg : 0 ≤ i.low.toRat)
    (hstart : Bracketed settings Good low high i []) (s : σ) :
    ∃ start t trials,
      (startingInterval (fun event => (bench.report event).onFirst) settings history workload i
        (trial bench settings)).runOn (s, []) = (.ok start, (t, trials)) ∧
      start.Grid d 0 ∧ Bracketed settings Good low high start trials ∧
      start.high.toRat - start.low.toRat ≤ i.high.toRat - i.low.toRat ∧
      Flanked settings start trials ∧ trials.length ≤ 1 := by
  rw [startingInterval]
  cases husable : usableRecord? settings history workload i with
  | none => exact ⟨i, s, [], rfl, hgrid, hstart, le_rfl, .nil settings i, by simp⟩
  | some entry =>
    obtain ⟨id, recorded⟩ := entry
    obtain ⟨hlow, hhigh⟩ := usableRecord?_eq_some husable
    have hhighlt := (le_abs_self _).trans_lt hgrid.high.lt
    have hpos : 0 < recorded.limit := by exact_mod_cast hnonneg.trans_lt hlow
    have hlt : recorded.limit < 10 ^ 59 := by
      have hpow : (10 : ℚ) ^ d ≤ 10 ^ 59 := pow_le_pow_right₀ (by norm_num) hd
      exact_mod_cast hhigh.trans_lt (hhighlt.trans_le hpow)
    obtain ⟨top, htop, hwhole, hle⟩ := mul_two_ofInt hpos hlt
    have hraise : Signal.raise (Context.standard.mul (.ofInt recorded.limit) 2) = .ok top := by
      rw [htop]
      rfl
    simp only
    rw [Action.runOn_bind_ok (a := top) (t := (s, [])) (by rw [Action.runOn_liftM, hraise])]
    by_cases hbelow : top < i.high
    · rw [if_pos hbelow]
      rw [Number.lt_iff] at hbelow
      have htopgrid : top.OnGrid d 0 := Number.onGrid_zero hwhole
        ⟨_, Number.toRat_eq_intCast hwhole⟩
        (abs_lt.2 ⟨by linarith [(by positivity : (0 : ℚ) < 10 ^ d)], by linarith⟩)
      have hlowtop : i.low.toRat ≤ top.toRat := by linarith
      obtain ⟨usage, t, htrial, hlimit, hgood⟩ := runOn_trial settings hbench
        (hstart.low_le.trans hlowtop) (hbelow.le.trans hstart.le_high) s []
      rw [Action.runOn_bind_ok htrial]
      obtain ⟨left, hleft, hl, hr⟩ :=
        Interval.between?_half hlowtop hbelow.le (settings.succeeded usage)
      obtain ⟨hlgrid, hrgrid⟩ := Interval.forall_of_half (P := fun x => x.OnGrid d 0) hl hr
        hgrid.low hgrid.high htopgrid
      have hshort : |recorded.limit| < 10 ^ 60 := abs_lt.2 ⟨by linarith, by linarith⟩
      have hwritable := Event.isWritable_shortcut (settings.succeeded usage) id top hshort
      obtain ⟨u, hreport⟩ := runOn_report hbench hwritable t ([] ++ [usage])
      refine ⟨left, u, [] ++ [usage], ?_, ⟨hlgrid, hrgrid⟩,
        hstart.split hlowtop hbelow.le hlimit hgood hl hr, ?_,
        (Flanked.nil settings i).split hlowtop hbelow.le hlimit hl hr, le_rfl⟩
      · -- the event that is reported, and the half that is left, go by the answer
        cases hsucceeded : settings.succeeded usage <;> rw [hsucceeded] at hreport hleft <;>
          simp only [if_true, Bool.false_eq_true, if_false] at hreport hleft
        · rw [if_neg (by simp), Action.runOn_bind_ok hreport, ← hleft]
          rfl
        · rw [if_pos rfl, Action.runOn_bind_ok hreport, ← hleft]
          rfl
      · rw [hl, hr]
        cases settings.succeeded usage <;>
          simp only [if_true, Bool.false_eq_true, if_false] <;> linarith
    · rw [if_neg hbelow]
      exact ⟨i, s, [], rfl, hgrid, hstart, le_rfl, .nil settings i, by simp⟩

/-! ## The steps of a search -/

/-- A trial at the midpoint of an interval, and the half that its outcome leaves. -/
structure Tried (settings : Settings) (Good : Usage → Prop) (i : Interval) (point : Number)
    (usage : Usage) (left : Interval) : Prop where
  point_eq : point.toRat = (i.low.toRat + i.high.toRat) / 2
  limit_eq : usage.limit = ⌊point.toRat⌋
  good : Good usage
  low_eq : left.low = if settings.succeeded usage then i.low else point
  high_eq : left.high = if settings.succeeded usage then point else i.high

variable {point : Number} {usage : Usage}

theorem Tried.low_le_point (h : Tried settings Good i point usage left) :
    i.low.toRat ≤ point.toRat := by
  have := i.toRat_le
  rw [h.point_eq]
  linarith

theorem Tried.point_le_high (h : Tried settings Good i point usage left) :
    point.toRat ≤ i.high.toRat := by
  have := i.toRat_le
  rw [h.point_eq]
  linarith

/-- The half that is left is the half of the rational interval. -/
theorem Tried.half_eq (h : Tried settings Good i point usage left) :
    Halving.half (i.low.toRat, i.high.toRat) (settings.succeeded usage) =
      (left.low.toRat, left.high.toRat) := by
  rw [h.low_eq, h.high_eq]
  cases settings.succeeded usage <;> simp [Halving.half, h.point_eq]

/-- **One step of a search**: unless both bounds coincide, a trial runs at the exact midpoint, and
its outcome picks the half. -/
theorem Interval.Grid.tries {k : ℕ} (h : i.Grid d k) (hdigits : d + k + 1 ≤ 60)
    (settings : Settings) (hbench : bench.Yields low high Good) (hlow : low ≤ i.low.toRat)
    (hhigh : i.high.toRat ≤ high) (s : σ) (trials : List Usage) :
    i.Exhausted ∨ ∃ point usage left t,
      Advances (trial bench settings) (fun step => (bench.report
        (.stepped step.index step.point step.succeeded step.left)).onFirst) k i (s, trials)
        ⟨k + 1, point, settings.succeeded usage, left⟩ (t, trials ++ [usage]) ∧
      Tried settings Good i point usage left ∧ left.Grid d (k + 1) := by
  rcases h.step hdigits with hend | ⟨-, m, hm, hinside, hexact, hnarrow⟩
  · exact .inl hend
  have hordered := i.toRat_le
  have hbelow : (low : ℚ) ≤ m.toRat := by
    rw [hexact]
    linarith
  have habove : m.toRat ≤ (high : ℚ) := by
    rw [hexact]
    linarith
  obtain ⟨usage, t, htrial, hlimit, hgood⟩ := runOn_trial settings hbench hbelow habove s trials
  obtain ⟨left, hleft, hl, hr, hgrid⟩ := hnarrow (settings.succeeded usage)
  have hwritable :
      (Event.stepped (k + 1) m (settings.succeeded usage) left).message.isWritable = true := by
    rw [Event.isWritable_stepped]
    exact Json.isWritable_integer (by rw [Nat.abs_cast]; omega)
  obtain ⟨u, hreport⟩ := runOn_report hbench hwritable t (trials ++ [usage])
  exact .inr ⟨m, usage, left, u, ⟨rfl, hm, hinside, hleft, _, htrial, hreport⟩,
    ⟨hexact, hlimit, hgood, hl, hr⟩, hgrid⟩

/-- What holds after `k` steps of the bisection of an interval. -/
structure Searched (settings : Settings) (Good : Usage → Prop) (low high : ℤ) (d : ℕ)
    (start : Interval) (k : ℕ) (i : Interval) (trials : List Usage) : Prop where
  grid : i.Grid d k
  bracketed : Bracketed settings Good low high i trials
  width_eq : i.high.toRat - i.low.toRat = (start.high.toRat - start.low.toRat) / 2 ^ k

variable {start : Interval} {k : ℕ}

/-- A step of a search keeps the bracket and halves the width. -/
theorem Searched.split (h : Searched settings Good low high d start k i trials)
    (htried : Tried settings Good i point usage left) (hgrid : left.Grid d (k + 1)) :
    Searched settings Good low high d start (k + 1) left (trials ++ [usage]) where
  grid := hgrid
  bracketed := h.bracketed.split htried.low_le_point htried.point_le_high htried.limit_eq
    htried.good htried.low_eq htried.high_eq
  width_eq := by
    have hhalf : left.high.toRat - left.low.toRat = (i.high.toRat - i.low.toRat) / 2 := by
      rw [htried.low_eq, htried.high_eq]
      cases settings.succeeded usage <;>
        simp only [if_true, Bool.false_eq_true, if_false, htried.point_eq] <;> ring
    rw [hhalf, h.width_eq, pow_succ, div_div]

/-- What the `k` trials of a bisection tell, after an early one at most: by their outcomes the
interval was halved, and all trials lie on its two sides. -/
structure Traced (settings : Settings) (start : Interval) (early : List Usage) (k : ℕ)
    (i : Interval) (asked : List Usage) : Prop where
  length_eq : asked.length = k
  bounds_eq : Halving.bounds (start.low.toRat, start.high.toRat) (asked.map settings.succeeded) =
    (i.low.toRat, i.high.toRat)
  flanked : Flanked settings i (early ++ asked)
  early_le : early.length ≤ 1

variable {early asked : List Usage}

theorem Traced.nil (h : Flanked settings start early) (hearly : early.length ≤ 1) :
    Traced settings start early 0 start [] where
  length_eq := rfl
  bounds_eq := rfl
  flanked := by rwa [List.append_nil]
  early_le := hearly

/-- A step of a search adds its outcome to the answers. -/
theorem Traced.split (h : Traced settings start early k i asked)
    (htried : Tried settings Good i point usage left) :
    Traced settings start early (k + 1) left (asked ++ [usage]) where
  length_eq := by rw [List.length_append, List.length_singleton, h.length_eq]
  bounds_eq := by
    rw [List.map_append, List.map_singleton, Halving.bounds_append, h.bounds_eq, htried.half_eq]
  flanked := by
    rw [← List.append_assoc]
    exact h.flanked.split htried.low_le_point htried.point_le_high htried.limit_eq htried.low_eq
      htried.high_eq
  early_le := h.early_le

/-! ## The interval that a search ends with -/

/-- **The trials of a search, and the interval that it ends with.** The search takes all its steps
unless the bounds of the interval coincide, and answers with the upper bound that is left, cut
upwards to whole bytes; and its end can be reported. -/
theorem runOn_searchLimit_traced (settings : Settings) (history : Option History)
    (workload : Option RawText) (hbench : bench.Yields low high Good) (hgrid : i.Grid d 0) {n : ℕ}
    (hdigits : d + n ≤ 59) (hnonneg : 0 ≤ i.low.toRat) (hlow : i.low.toRat = low)
    (hhigh : i.high.toRat = high) (s : σ) :
    ∃ start early k j asked t,
      (searchLimit bench settings history i workload n).runOn (s, []) =
        (.ok (start, ⌈j.high.toRat⌉), (t, early ++ asked)) ∧
      start.Grid d 0 ∧ start.high.toRat - start.low.toRat ≤ high - low ∧
      Searched settings Good low high d start k j (early ++ asked) ∧
      Traced settings start early k j asked ∧
      k ≤ n ∧ (start.low.toRat < start.high.toRat → k = n) ∧
      ∃ u, (bench.report (.searchFinished ⌈j.high.toRat⌉ (early ++ asked).length workload)).runOn t =
        (.ok (), u) := by
  obtain ⟨start, t₁, early, hstart, hstartGrid, hbracketed, hnarrower, hflanked, hearly⟩ :=
    runOn_startingInterval history workload hbench hgrid (by omega) hnonneg (.start hlow hhigh) s
  have hwritable : (Event.searchStarted start n workload).message.isWritable = true := by
    rw [Event.isWritable_searchStarted]
    exact Json.isWritable_integer (by rw [Nat.abs_cast]; omega)
  obtain ⟨t₂, hreport⟩ := runOn_report hbench hwritable t₁ early
  let note (step : Step) : Action (σ × List Usage) Unit :=
    (bench.report (.stepped step.index step.point step.succeeded step.left)).onFirst
  let P (k : ℕ) (j : Interval) (s : σ × List Usage) : Prop :=
    ∃ asked, s.2 = early ++ asked ∧ Searched settings Good low high d start k j s.2 ∧
      Traced settings start early k j asked
  have hstep : ∀ k j (s : σ × List Usage), k < n → P k j s → j.Exhausted ∨
      ∃ step t stop, Advances (trial bench settings) note k j s step t ∧
        (pure false : Except Failure Bool) = .ok stop ∧ P (k + 1) step.left t := by
    rintro k j ⟨s, trials⟩ hk ⟨asked, rfl, hsearched, htraced⟩
    rcases hsearched.grid.tries (by omega) settings hbench hsearched.bracketed.low_le
        hsearched.bracketed.le_high s (early ++ asked) with
      hstop | ⟨point, usage, left, t, hadv, htried, hleft⟩
    · exact .inl hstop
    · exact .inr ⟨_, (t, early ++ asked ++ [usage]), false, hadv, rfl, asked ++ [usage],
        List.append_assoc early asked [usage], hsearched.split htried hleft, htraced.split htried⟩
  obtain ⟨k, j, ⟨t, trials⟩, hrun, hk, ⟨asked, rfl, hsearched, htraced⟩, hend⟩ :=
    bisect_induction (trial bench settings) note (fun _ => pure false) P n hstep n 0 start
      (t₂, early) (by omega)
      ⟨[], by simp, ⟨hstartGrid, hbracketed, by simp⟩, .nil hflanked hearly⟩
  refine ⟨start, early, k, j, asked, t, ?_, hstartGrid, by linarith, hsearched, htraced, hk, ?_, ?_⟩
  · rw [searchLimit, Action.runOn_bind_ok hstart, Action.runOn_bind_ok hreport]
    rw [Action.runOn_bind_ok (a := j.high) (t := (t, early ++ asked))
      (by rw [runOn_search_iterations, hrun]; rfl), ← Number.ceil_eq]
    rfl
  · intro hlt
    -- the run is short of steps only if nothing is left to halve
    rcases hend with hlast | hexhausted | hdone
    · exact hlast
    · have := hsearched.grid.width_eq_zero (by omega) hexhausted hsearched.width_eq
      linarith
    · cases hdone
  · have hfirst : 0 ≤ low := by
      rw [hlow] at hnonneg
      exact_mod_cast hnonneg
    have hlast : (high : ℚ) < 10 ^ 60 := by
      have hpow : (10 : ℚ) ^ d ≤ 10 ^ 60 := pow_le_pow_right₀ (by norm_num) (by omega)
      linarith [(le_abs_self _).trans_lt hgrid.high.lt]
    have hcount : (early ++ asked).length < 10 ^ 60 := by
      rw [List.length_append, htraced.length_eq]
      have := htraced.early_le
      omega
    exact hsearched.bracketed.reportEnd hbench hfirst (by exact_mod_cast hlast) hcount workload t

/-- **A search ends with a bracketed interval** that is as narrow as its iterations make it, and
answers with its upper bound, cut upwards to whole bytes; and its end can be reported. -/
theorem runOn_searchLimit (history : Option History) (workload : Option RawText)
    (hbench : bench.Yields low high Good) (hgrid : i.Grid d 0) {n : ℕ} (hdigits : d + n ≤ 59)
    (hnonneg : 0 ≤ i.low.toRat) (hlow : i.low.toRat = low) (hhigh : i.high.toRat = high) (s : σ) :
    ∃ start j t trials,
      (searchLimit bench settings history i workload n).runOn (s, []) =
        (.ok (start, ⌈j.high.toRat⌉), (t, trials)) ∧
      Bracketed settings Good low high j trials ∧
      j.high.toRat - j.low.toRat ≤ ((high : ℚ) - low) / 2 ^ n ∧
      ∃ u, (bench.report (.searchFinished ⌈j.high.toRat⌉ trials.length workload)).runOn t =
        (.ok (), u) := by
  obtain ⟨start, early, k, j, asked, t, hrun, -, hnarrower, hsearched, -, -, hall, hreport⟩ :=
    runOn_searchLimit_traced settings history workload hbench hgrid hdigits hnonneg hlow hhigh s
  refine ⟨start, j, t, early ++ asked, hrun, hsearched.bracketed, ?_, hreport⟩
  have hwidth : j.high.toRat - j.low.toRat = (start.high.toRat - start.low.toRat) / 2 ^ n := by
    rw [hsearched.width_eq]
    rcases start.toRat_le.eq_or_lt with heq | hlt
    · rw [heq, sub_self, zero_div, zero_div]
    · rw [hall hlt]
  rw [hwidth]
  exact div_le_div_of_nonneg_right hnarrower (by positivity)

end MemoryLimit
