import Mathlib
import MemoryLimit.Proofs.Decimal.Text
import MemoryLimit.Proofs.Host.Frame
import MemoryLimit.Proofs.Usage.Order
import MemoryLimit.Trial.Accounting

/-!
# Records of runs can be compared

The seconds in the record of a run are numbers: processor seconds are a quotient of integers,
and wall seconds are the text of a difference of two clock readings, which is read as a number
again.

## Main definitions

* `Binary64.IsPlain` — the characters of finite numbers.
* `Host.ClockRuns` — all readings of the clock are finite.

## Main statements

* `isNumeric_of_decimalOfText` — the text of a binary number is read as a number.
* `collect_eq_ok` — what the record of a run has.
-/
namespace MemoryLimit

open Text

/-! ## Differences of clock readings -/

namespace Binary64

theorem ofRatio_ne_nan (negative : Bool) (n d : ℕ) : ofRatio negative n d ≠ .nan := by
  rw [ofRatio]
  split
  · simp [zero]
  extract_lets e
  split
  extract_lets q
  split
  split
  · simp
  · simp

theorem sub_ne_nan {x y : Binary64} (hx : x.isFinite = true) (hy : y.isFinite = true) :
    x.sub y ≠ .nan := by
  cases x <;> cases y <;> try contradiction
  simp only [sub, neg, add]
  split
  · simp [zero]
  · exact ofRatio_ne_nan _ _ _

theorem orZero_ne_nan {x : Binary64} (hx : x ≠ .nan) : x.orZero ≠ .nan := by
  rw [orZero]
  split
  · simp [zero]
  · exact hx

/-! ## Texts of binary numbers -/

/-- A character of the text of a finite number. -/
def IsPlain (c : Char) : Prop :=
  c.isDigit = true ∨ c ∈ ['.', 'e', '+', '-']

theorem IsPlain.printable {c : Char} (h : IsPlain c) : Printable c := by
  rcases h with hdigit | hmark
  · exact printable_of_isDigit hdigit
  · exact printable_of_all (s := ['.', 'e', '+', '-']) (by decide) c hmark

/-- No character of a number belongs to the name of no number. -/
theorem IsPlain.toLower_ne {c : Char} (h : IsPlain c) : c.toLower ≠ 'n' := by
  rcases h with hdigit | hmark
  · rw [toLower_digit hdigit]
    rintro rfl
    cases hdigit
  · fin_cases hmark <;> decide

theorem isPlain_of_mem_exponentText {e : ℤ} {c : Char} (h : c ∈ exponentText e) : IsPlain c := by
  rw [exponentText] at h
  rcases List.mem_cons.1 h with rfl | h
  · exact .inr (by decide)
  rcases List.mem_cons.1 h with rfl | h
  · split <;> exact .inr (by decide)
  rcases List.mem_append.1 h with hzero | hdigit
  · rw [List.eq_of_mem_replicate hzero]
    exact .inl rfl
  · exact .inl (isDigit_of_mem_natDigits hdigit)

theorem isPlain_of_mem_digitsText {digits : List Char} (hdigits : ∀ c ∈ digits, c.isDigit = true)
    {point : ℤ} {c : Char} (h : c ∈ digitsText digits point) : IsPlain c := by
  have hzeros : ∀ {k : ℕ}, c ∈ List.replicate k '0' → IsPlain c := by
    intro k hc
    rw [List.eq_of_mem_replicate hc]
    exact .inl rfl
  unfold digitsText at h
  split at h
  · split at h
    · rcases List.mem_cons.1 h with rfl | h
      · exact .inl rfl
      rcases List.mem_cons.1 h with rfl | h
      · exact .inr (by decide)
      rcases List.mem_append.1 h with hzero | hdigit
      · exact hzeros hzero
      · exact .inl (hdigits c hdigit)
    · simp only [List.append_assoc, List.mem_append, List.mem_cons] at h
      rcases h with hdigit | hzero | rfl | hfraction
      · exact .inl (hdigits c (List.mem_of_mem_take hdigit))
      · exact hzeros hzero
      · exact .inr (by decide)
      · split at hfraction
        · rw [List.mem_singleton.1 hfraction]
          exact .inl rfl
        · exact .inl (hdigits c (List.mem_of_mem_drop hfraction))
  · split at h
    · rcases List.mem_cons.1 h with rfl | hexponent
      · exact .inl (hdigits c (by simp))
      · exact isPlain_of_mem_exponentText hexponent
    · rename_i d rest _
      simp only [List.cons_append, List.mem_cons, List.mem_append] at h
      rcases h with rfl | rfl | hdigit | hexponent
      · exact .inl (hdigits c (by simp))
      · exact .inr (by decide)
      · exact .inl (hdigits c (by simp [hdigit]))
      · exact isPlain_of_mem_exponentText hexponent
    · cases h

theorem isPlain_of_mem_text {negative : Bool} {m : ℕ} {e : ℤ} {c : Char}
    (h : c ∈ (text (.finite negative m e)).toList) : IsPlain c := by
  have hmagnitude : c ∈ (if m = 0 then ['0', '.', '0']
      else digitsText (shortest m e).1 (shortest m e).2) → IsPlain c := by
    intro hc
    split at hc
    · fin_cases hc <;> first | exact .inl rfl | exact .inr (by decide)
    · exact isPlain_of_mem_digitsText (fun _ => isDigit_of_mem_natDigits) hc
  rw [text, String.toList_ofList] at h
  cases negative
  · exact hmagnitude h
  · rcases List.mem_cons.1 h with rfl | h
    · exact .inr (by decide)
    · exact hmagnitude h

end Binary64

/-! ## Reading a number -/

theorem mem_of_mem_splitSign {s : List Char} {c : Char} (h : c ∈ (splitSign s).2) : c ∈ s := by
  unfold splitSign at h
  split at h
  · exact List.mem_cons_of_mem _ h
  · exact List.mem_cons_of_mem _ h
  · exact h

/-- A numeral without the letter of its name is not read as no number. -/
theorem isNumeric_of_readPlainDecimal {s : List Char} {d : Decimal} (hs : ∀ c ∈ s, c.toLower ≠ 'n')
    (h : readPlainDecimal s = .ok d) : d.IsNumeric := by
  have hname : 'n' ∉ lowerAscii (splitSign s).2 := by
    rw [lowerAscii, List.mem_map]
    rintro ⟨c, hc, hlower⟩
    exact hs c (mem_of_mem_splitSign hc) hlower
  rw [readPlainDecimal] at h
  simp only at h
  cases hspecial : readSpecial? (splitSign s).1 (splitSign s).2 with
  | some special =>
    rw [hspecial] at h
    cases h
    rw [readSpecial?] at hspecial
    split at hspecial <;> rename_i heq
    · cases hspecial
      exact .infinity _
    · cases hspecial
      exact .infinity _
    · exact absurd (by rw [heq]; simp) hname
    · exact absurd (by rw [heq]; simp) hname
    · cases hspecial
  | none =>
    rw [hspecial] at h
    simp only at h
    split at h
    · cases h
    · split at h
      · cases h
        exact .finite _
      · cases h

/-- **The text of a binary number is read as a number.** -/
theorem isNumeric_of_decimalOfText {x : Binary64} (hx : x ≠ .nan) {d : Decimal}
    (h : decimalOfText x.text = .ok d) : d.IsNumeric := by
  cases x with
  | nan => exact absurd rfl hx
  | infinity negative =>
    cases negative <;> cases h <;> exact .infinity _
  | finite negative m e =>
    have hread : readDecimal (Binary64.text (.finite negative m e)) = .ok d := by
      cases hr : readDecimal (Binary64.text (.finite negative m e)) with
      | ok found =>
        rw [decimalOfText, hr] at h
        cases h
        rfl
      | error fault =>
        rw [decimalOfText, hr] at h
        cases h
    refine isNumeric_of_readPlainDecimal ?_ hread
    intro c hc
    obtain ⟨c', hc', rfl⟩ := List.mem_map.1 hc
    have hplain := Binary64.isPlain_of_mem_text (mem_of_mem_trim (List.mem_filter.1 hc').1)
    rw [hplain.printable.plainCharacter]
    exact hplain.toLower_ne

/-! ## Readings of the clock -/

namespace Host

/-- All readings of the clock that are still to come are finite. -/
def ClockRuns (h : Host) : Prop :=
  ∀ now ∈ h.clock, now.isFinite = true

theorem unobserving_clockRuns : Unobserving ClockRuns :=
  ⟨fun _ _ _ h => h, fun _ _ _ h => h, fun _ _ h => h, fun _ _ h => h,
    fun _ h now hnow => h now (List.mem_of_mem_tail hnow), fun _ _ h => h⟩

/-- A clock that runs gives a finite reading, and runs on. -/
theorem runOn_tick {h : Host} (hclock : h.ClockRuns) :
    ∃ now t, tick.runOn h = (.ok now, t) ∧ now.isFinite = true ∧ t.ClockRuns := by
  rw [tick, Action.runOn_modifyGet]
  refine ⟨_, _, rfl, ?_⟩
  split
  · exact ⟨rfl, hclock⟩
  · rename_i last heq
    exact ⟨hclock last (by simp [heq]), hclock⟩
  · rename_i now later _ heq
    exact ⟨hclock now (by simp [heq]), fun next hnext => hclock next (by simp [heq, hnext])⟩

end Host

/-! ## Processor seconds -/

theorem isNumeric_of_microseconds {n : ℤ} {d : Decimal} (h : microseconds n = .ok d) :
    d.IsNumeric := by
  rw [microseconds] at h
  cases hdiv : Context.standard.divNumber (.ofInt n) (.ofInt 1000000) with
  | ok x =>
    rw [hdiv] at h
    cases h
    exact .finite x
  | error signal =>
    rw [hdiv] at h
    cases h

variable {h t : Host} {group : Path} {cpu : Decimal}

/-- Processor seconds come from a number of microseconds, or are zero because they are not known. -/
theorem cpuOrZero_eq_ok (hrun : (cpuOrZero group).runOn h = (.ok cpu, t)) :
    cpu = .ofInt 0 ∨ ∃ n, microseconds n = .ok cpu := by
  rw [cpuOrZero, Action.runOn_tryCatch] at hrun
  cases hread : (readCpu group).runOn h with
  | mk outcome u =>
    rw [hread] at hrun
    cases outcome with
    | ok found =>
      cases hrun
      obtain ⟨stat, _, -, hvalue⟩ := Action.runOn_bind_eq_ok.1 hread
      split at hvalue
      · cases hvalue
      · split at hvalue
        · cases hvalue
        · rw [Action.runOn_liftM] at hvalue
          exact .inr ⟨_, (Prod.mk.inj hvalue).1⟩
    | error failure =>
      simp only at hrun
      split at hrun
      · obtain ⟨_, _, -, hzero⟩ := Action.runOn_bind_eq_ok.1 hrun
        cases hzero
        exact .inl rfl
      · cases hrun

theorem isNumeric_of_cpuOrZero (hrun : (cpuOrZero group).runOn h = (.ok cpu, t)) :
    cpu.IsNumeric := by
  rcases cpuOrZero_eq_ok hrun with rfl | ⟨n, hseconds⟩
  · exact .finite _
  · exact isNumeric_of_microseconds hseconds

theorem keeps_cpuOrZero {P : Host → Prop} (hP : Host.Unobserving P) (group : Path) :
    Action.Keeps P (cpuOrZero group) := by
  have hread : Action.Keeps P (readCpu group) := by
    refine .bind (.onFault (.bind (Host.keeps_readText hP _) fun _ => .pure _) fun _ => .throw _)
      fun stat => ?_
    split
    · exact .throw _
    · split
      · exact .throw _
      · exact .liftM _
  refine hread.tryCatch fun failure => ?_
  split
  · exact .bind (Host.keeps_report hP _) fun _ => .pure _
  · exact .throw _

/-! ## Records -/

theorem isNumeric_of_elapsed {start now : Binary64} {wall : Decimal}
    (hstart : start.isFinite = true) (hnow : now.isFinite = true)
    (h : elapsed start now = .ok wall) : wall.IsNumeric := by
  rw [elapsed] at h
  cases hread : decimalOfText (now.sub start).orZero.text with
  | ok d =>
    rw [hread] at h
    cases h
    exact isNumeric_of_decimalOfText
      (Binary64.orZero_ne_nan (Binary64.sub_ne_nan hnow hstart)) hread
  | error signal =>
    rw [hread] at h
    cases h

/-- **The record of a run** has the exit code of the run and the limit of its leaf, and both
figures that were measured are numbers. -/
theorem collect_eq_ok {leaf : Leaf} {start : Binary64} {exitCode : ℤ} {usage : Usage}
    (hclock : h.ClockRuns) (hstart : start.isFinite = true)
    (hrun : (collect leaf start exitCode).runOn h = (.ok usage, t)) :
    usage.exitCode = exitCode ∧ usage.limit = leaf.limit ∧ usage.Numeric := by
  obtain ⟨cpu, h₁, hcpu, hrun⟩ := Action.runOn_bind_eq_ok.1 hrun
  have hclock₁ : h₁.ClockRuns := by
    have hkeeps := keeps_cpuOrZero Host.unobserving_clockRuns leaf.path h hclock
    rwa [hcpu] at hkeeps
  obtain ⟨now, h₂, htick, hnow, -⟩ := Host.runOn_tick hclock₁
  rw [Action.runOn_bind_ok htick] at hrun
  obtain ⟨wall, h₃, hwall, hrun⟩ := Action.runOn_bind_eq_ok.1 hrun
  obtain ⟨load, h₄, -, hrun⟩ := Action.runOn_bind_eq_ok.1 hrun
  obtain ⟨_, h₅, -, hrun⟩ := Action.runOn_bind_eq_ok.1 hrun
  cases hrun
  rw [Action.runOn_liftM] at hwall
  obtain ⟨helapsed, -⟩ := Prod.mk.inj hwall
  exact ⟨rfl, rfl, isNumeric_of_cpuOrZero hcpu, isNumeric_of_elapsed hstart hnow helapsed⟩

end MemoryLimit
