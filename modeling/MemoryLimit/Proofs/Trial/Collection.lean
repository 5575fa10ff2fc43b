import Mathlib
import MemoryLimit.Proofs.Binary64.Text
import MemoryLimit.Proofs.Host.Reading
import MemoryLimit.Proofs.Numeral.Integer

/-!
# Every run that ended is recorded

The record of a run is made from an accounting file and two readings of a clock. Whatever the file has
in it, and whatever the clock says, nothing in the calculation of the record signals: the numbers that
can be met have too few digits for that. So there is a record unless the bytes of the file are no text,
and processor seconds that are not stated count as zero.

## Main definitions

* `statedMicroseconds?` — the processor time that the text of an accounting file states.
* `Host.stated?` — the processor time that the accounting file of a group states.

## Main statements

* `exists_microseconds`, `exists_elapsed`, `exists_averageLoad` — the figures of a record.
* `collect_tolerates` — when there is a record, and what it has.
-/
namespace MemoryLimit

open Text

/-! ## Figures -/

/-- The seconds of as many microseconds as can be read. -/
theorem exists_microseconds {n : ℤ} (hn : digitCount n.natAbs ≤ maxNumeralDigits) :
    ∃ x : Number, microseconds n = .ok (.finite x) ∧ x.Within 20000 := by
  have hdividend : (Number.ofInt n).Within maxNumeralDigits :=
    ⟨hn, by simp [Number.ofInt], by simp [Number.ofInt]⟩
  have hdivisor : (Number.ofInt 1000000).Within 7 := ⟨by decide, by decide, by decide⟩
  obtain ⟨x, hx, hwithin⟩ :=
    Context.divNumber_within (k := 20000) hdividend hdivisor (by decide) (by decide) (by decide)
  refine ⟨x, ?_, hwithin⟩
  rw [microseconds, hx]
  rfl

/-- Any two readings of the clock have wall seconds between them. -/
theorem exists_elapsed (start now : Binary64) :
    ∃ wall, elapsed start now = .ok wall ∧ wall.Moderate := by
  obtain ⟨wall, hwall, hmoderate⟩ := Binary64.decimalOfText_text
    (Binary64.inFormat_orZero (Binary64.inFormat_sub now start))
  refine ⟨wall, ?_, hmoderate⟩
  rw [elapsed, hwall]
  rfl

/-- Moderate seconds have an average load. -/
theorem exists_averageLoad {cpu : Number} {wall : Decimal} (hcpu : cpu.Within 20000)
    (hwall : wall.Moderate) : ∃ load, averageLoad (.finite cpu) wall = .ok load := by
  rw [averageLoad]
  split
  · rename_i hnonzero
    suffices hdiv : ∃ d, Decimal.div Context.standard (.finite cpu) wall = .ok d by
      obtain ⟨d, hd⟩ := hdiv
      rw [hd]
      exact ⟨_, rfl⟩
    cases wall with
    | finite x =>
      have hx : x.coefficient ≠ 0 := by simpa [Decimal.isNonzero] using hnonzero
      obtain ⟨r, hr, -⟩ :=
        Context.divNumber_within (k := 200000) hcpu hwall hx (by decide) (by decide)
      refine ⟨.finite r, ?_⟩
      change (Context.standard.divNumber cpu x).map Decimal.finite = _
      rw [hr]
      rfl
    | infinity negative => exact ⟨_, rfl⟩
    | nan negative signaling payload =>
      -- one that signals is not the text of a reading
      obtain rfl : signaling = false := hwall
      exact ⟨_, rfl⟩
  · exact ⟨none, rfl⟩

/-! ## The accounting file -/

/-- The processor time that the text of an accounting file states. -/
def statedMicroseconds? (text : String) : Option ℤ :=
  (lastValue? ControlFile.usageMicroseconds (keyedLines text)).bind fun value =>
    (readInteger value).toOption

/-- The processor time that the accounting file of a group states, if it can be read. -/
def Host.stated? (h : Host) (group : Path) : Option ℤ :=
  match ((Host.readText (group.child ControlFile.cpuStat)).runOn h).1 with
  | .ok text => statedMicroseconds? text
  | .error _ => none

variable {h t : Host} {group : Path} {text : String}

/-- A failure to read the processor time is reported, and the time counts as zero. -/
theorem runOn_cpuOrZero_of_accounting {fault : AccountingFault}
    (hread : (readCpu group).runOn h = (.error (.accounting fault), t)) :
    ∃ u, (cpuOrZero group).runOn h = (.ok (.ofInt 0), u) := by
  rw [cpuOrZero, Action.runOn_tryCatch, hread]
  exact ⟨_, rfl⟩

/-- What the text of an accounting file is read as. -/
theorem runOn_readCpu_eq
    (hread : (Host.readText (group.child ControlFile.cpuStat)).runOn h = (.ok text, t)) :
    (readCpu group).runOn h =
      (match lastValue? ControlFile.usageMicroseconds (keyedLines text) with
        | none => .error (.accounting (.missing ControlFile.usageMicroseconds
            (group.child ControlFile.cpuStat).text))
        | some value =>
          match readInteger value with
          | .error _ => .error (.accounting (.malformed ControlFile.usageMicroseconds
              (group.child ControlFile.cpuStat).text value))
          | .ok n => microseconds n, t) := by
  have hkeyed : (Action.onFault (readKeyed (group.child ControlFile.cpuStat)) fun fault =>
      accountingFailure (.unreadable (group.child ControlFile.cpuStat).text fault)).runOn h =
        (.ok (keyedLines text), t) := by
    rw [Action.runOn_onFault, readKeyed, Action.runOn_bind_ok hread, Action.runOn_pure]
  rw [readCpu, Action.runOn_bind_ok hkeyed]
  cases lastValue? ControlFile.usageMicroseconds (keyedLines text) with
  | none => rfl
  | some value =>
    cases hinteger : readInteger value with
    | error fault =>
      simp only [hinteger]
      rfl
    | ok n => simp only [hinteger, Action.runOn_liftM]

/-- The processor time is read from a text. -/
theorem runOn_readCpu_of_text
    (hread : (Host.readText (group.child ControlFile.cpuStat)).runOn h = (.ok text, t)) :
    (∃ n x, statedMicroseconds? text = some n ∧ microseconds n = .ok (.finite x) ∧
        x.Within 20000 ∧ (readCpu group).runOn h = (.ok (.finite x), t)) ∨
      statedMicroseconds? text = none ∧
        ∃ fault, (readCpu group).runOn h = (.error (.accounting fault), t) := by
  rw [runOn_readCpu_eq hread, statedMicroseconds?]
  cases hvalue : lastValue? ControlFile.usageMicroseconds (keyedLines text) with
  | none => exact .inr ⟨rfl, _, rfl⟩
  | some value =>
    cases hinteger : readInteger value with
    | error fault =>
      refine .inr ⟨by simp [hinteger, Except.toOption], .malformed ControlFile.usageMicroseconds
        (group.child ControlFile.cpuStat).text value, ?_⟩
      simp only [hinteger]
    | ok n =>
      obtain ⟨x, hx, hwithin⟩ := exists_microseconds (digitCount_of_readInteger hinteger)
      exact .inl ⟨n, x, by simp [hinteger, Except.toOption], hx, hwithin, by simp only [hinteger, hx]⟩

/-- **The processor seconds of a group are known or zero** if the accounting file is legible. -/
theorem runOn_cpuOrZero (hlegible : h.Legible (group.child ControlFile.cpuStat)) :
    ∃ x t, (cpuOrZero group).runOn h = (.ok (.finite x), t) ∧ x.Within 20000 ∧
      (∀ n, h.stated? group = some n → microseconds n = .ok (.finite x)) ∧
      (h.stated? group = none → x = .ofInt 0) := by
  have hzero : (Number.ofInt 0).Within 20000 := ⟨by decide, by decide, by decide⟩
  rcases Host.readText_cases (group.child ControlFile.cpuStat) h with
    ⟨text, t, hread, -⟩ | ⟨fault, t, hread, -⟩ | ⟨failure, t, -, -, hnot⟩
  · have hstated : h.stated? group = statedMicroseconds? text := by rw [Host.stated?, hread]
    rw [hstated]
    rcases runOn_readCpu_of_text hread with ⟨n, x, hn, hx, hwithin, hcpu⟩ | ⟨hnone, fault, hcpu⟩
    · refine ⟨x, t, by rw [cpuOrZero, Action.runOn_tryCatch, hcpu], hwithin, ?_, by simp [hn]⟩
      intro n' hn'
      rw [hn, Option.some.injEq] at hn'
      rw [← hn', hx]
    · obtain ⟨u, hrun⟩ := runOn_cpuOrZero_of_accounting hcpu
      exact ⟨_, u, hrun, hzero, by simp [hnone], fun _ => rfl⟩
  · have hstated : h.stated? group = none := by rw [Host.stated?, hread]
    have hcpu : (readCpu group).runOn h =
        (.error (.accounting (.unreadable (group.child ControlFile.cpuStat).text fault)), t) := by
      rw [readCpu, Action.runOn_bind, Action.runOn_onFault, readKeyed,
        Action.runOn_bind_error hread]
      rfl
    obtain ⟨u, hrun⟩ := runOn_cpuOrZero_of_accounting hcpu
    exact ⟨_, u, hrun, hzero, by simp [hstated], fun _ => rfl⟩
  · exact absurd hlegible hnot

/-- A failure to read the accounting file that is no fault is passed on. -/
theorem runOn_cpuOrZero_of_not_legible (hnot : ¬ h.Legible (group.child ControlFile.cpuStat)) :
    ∃ failure t, (cpuOrZero group).runOn h = (.error failure, t) ∧ failure.OfText := by
  rcases Host.readText_cases (group.child ControlFile.cpuStat) h with
    ⟨_, _, -, hlegible⟩ | ⟨_, _, -, hlegible⟩ | ⟨failure, t, hread, hkind, -⟩
  · exact absurd hlegible hnot
  · exact absurd hlegible hnot
  · refine ⟨failure, t, ?_, hkind⟩
    rw [cpuOrZero, Action.runOn_tryCatch, readCpu, Action.runOn_bind, Action.runOn_onFault, readKeyed,
      Action.runOn_bind_error hread]
    cases hkind <;> rfl

/-! ## Records -/

/-- **Every run that ended is recorded**, unless the bytes of the accounting file are no text. Whatever
else becomes of the file, and whatever the clock says, there is a record with the exit code of the run
and the limit of its leaf; its processor seconds are those that the file states, or zero if it cannot
be read or states none. -/
theorem collect_tolerates (leaf : Leaf) (start : Binary64) (exitCode : ℤ) (h : Host) :
    ((∃ usage t, (collect leaf start exitCode).runOn h = (.ok usage, t)) ↔
      h.Legible (leaf.path.child ControlFile.cpuStat)) ∧
    (∀ failure t, (collect leaf start exitCode).runOn h = (.error failure, t) → failure.OfText) ∧
    ∀ usage t, (collect leaf start exitCode).runOn h = (.ok usage, t) →
      usage.exitCode = exitCode ∧ usage.limit = leaf.limit ∧
        (∀ n, h.stated? leaf.path = some n → microseconds n = .ok usage.cpuSeconds) ∧
        (h.stated? leaf.path = none → usage.cpuSeconds = .ofInt 0) := by
  by_cases hlegible : h.Legible (leaf.path.child ControlFile.cpuStat)
  · obtain ⟨cpu, t, hcpu, hwithin, hstated, hzero⟩ := runOn_cpuOrZero hlegible
    obtain ⟨now, u, htick⟩ : ∃ now u, Host.tick.runOn t = (.ok now, u) :=
      ⟨_, _, Action.runOn_modifyGet _ _⟩
    obtain ⟨wall, hwall, hmoderate⟩ := exists_elapsed start now
    obtain ⟨load, hload⟩ := exists_averageLoad hwithin hmoderate
    obtain ⟨v, hrun⟩ : ∃ v, (collect leaf start exitCode).runOn h =
        (.ok ⟨exitCode, .finite cpu, wall, leaf.limit⟩, v) := by
      rw [collect, Action.runOn_bind_ok hcpu, Action.runOn_bind_ok htick]
      simp only [Action.runOn_bind, Action.runOn_liftM, hwall, Signal.raise, hload, Except.mapError]
      exact ⟨_, rfl⟩
    refine ⟨⟨fun _ => hlegible, fun _ => ⟨_, v, hrun⟩⟩, ?_, ?_⟩
    · intro failure s hfailed
      rw [hrun] at hfailed
      cases hfailed
    · intro usage s hused
      rw [hrun] at hused
      cases hused
      exact ⟨rfl, rfl, hstated, fun hnone => by rw [hzero hnone]; rfl⟩
  · obtain ⟨failure, t, hcpu, hkind⟩ := runOn_cpuOrZero_of_not_legible hlegible
    have hrun : (collect leaf start exitCode).runOn h = (.error failure, t) := by
      rw [collect, Action.runOn_bind_error hcpu]
    refine ⟨⟨?_, fun hp => absurd hp hlegible⟩, ?_, ?_⟩
    · intro hex
      obtain ⟨usage, s, hused⟩ := hex
      rw [hrun] at hused
      cases hused
    · intro other s hfailed
      rw [hrun] at hfailed
      cases hfailed
      exact hkind
    · intro usage s hused
      rw [hrun] at hused
      cases hused

/-- A host with a group whose accounting file has a byte that is no text. -/
def Host.garbled : Host where
  tree := ⟨[(["group"], .directory), (["group", "cpu.stat"], .file ⟨#[0xff]⟩)]⟩

/-- Such bytes are not taken for missing accounting: there is no record. -/
theorem collect_garbled :
    ¬ ∃ usage t, (collect ⟨.read "/group", 5, false⟩ (.zero false) 0).runOn .garbled =
      (.ok usage, t) := by
  have hrun : ((collect ⟨.read "/group", 5, false⟩ (.zero false) 0).runOn .garbled).1 =
    .error .undecodable := by decide +kernel
  intro hex
  obtain ⟨usage, t, hused⟩ := hex
  rw [hused] at hrun
  cases hrun

end MemoryLimit
