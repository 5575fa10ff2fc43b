import Mathlib
import MemoryLimit.Proofs.Decimal.Value
import MemoryLimit.Proofs.Usage.Order

/-!
# The rank of a record

Two records are compared as their ranks are: by limit, exit code, processor seconds and wall
seconds, the first that differs decides, and seconds count by value, however they are written. The
order of the ranks is linear, so two records of one rank are the same up to the spelling of their
seconds. The comparison has no result exactly where it comes to a figure that is no number.

## Main definitions

* `Decimal.toExtended` — the value of a number or an infinity.
* `Usage.rank` — the figures of a record, in the order in which they decide.
* `Usage.Undecided` — a comparison of two records comes to a figure that is no number.

## Main statements

* `Usage.compare_eq` — records are compared as their ranks are.
* `Usage.larger_eq` — of two records the one with the higher rank is kept.
* `Usage.compare_eq_error_iff` — when records cannot be compared.
-/
namespace MemoryLimit

/-- The rationals, with the two infinities at their ends. -/
abbrev Extended := WithBot (WithTop ℚ)

namespace Decimal

/-- The value of a number or an infinity. What is no number has no value; it is put at the lower
end. -/
def toExtended : Decimal → Extended
  | finite x => ((x.toRat : WithTop ℚ) : Extended)
  | infinity false => ((⊤ : WithTop ℚ) : Extended)
  | infinity true => ⊥
  | nan .. => ⊥

variable {x y : Decimal}

/-- Numbers and infinities are compared as their values are. -/
theorem compare_eq (hx : x.IsNumeric) (hy : y.IsNumeric) :
    x.compare y = .ok (Ord.compare x.toExtended y.toExtended) := by
  cases hx with
  | finite x =>
    cases hy with
    | finite y =>
      have hmono : StrictMono fun q : ℚ => ((q : WithTop ℚ) : Extended) :=
        WithBot.coe_strictMono.comp WithTop.coe_strictMono
      rw [compare, Number.compare_eq, ← cmp_eq_compare, ← cmp_eq_compare]
      exact congrArg Except.ok (hmono.cmp_map_eq _ _).symm
    | infinity t =>
      cases t
      · rw [toExtended, toExtended,
          compare_lt_iff_lt.2 (WithBot.coe_lt_coe.2 (WithTop.coe_lt_top x.toRat))]
        rfl
      · rw [toExtended, toExtended, compare_gt_iff_gt.2 (WithBot.bot_lt_coe _)]
        rfl
  | infinity s =>
    cases hy with
    | finite y =>
      cases s
      · rw [toExtended, toExtended,
          compare_gt_iff_gt.2 (WithBot.coe_lt_coe.2 (WithTop.coe_lt_top y.toRat))]
        rfl
      · rw [toExtended, toExtended, compare_lt_iff_lt.2 (WithBot.bot_lt_coe _)]
        rfl
    | infinity t =>
      cases s <;> cases t
      · rw [compare_eq_iff_eq.2 rfl]
        rfl
      · rw [toExtended, toExtended, compare_gt_iff_gt.2 (WithBot.bot_lt_coe _)]
        rfl
      · rw [toExtended, toExtended, compare_lt_iff_lt.2 (WithBot.bot_lt_coe _)]
        rfl
      · rw [compare_eq_iff_eq.2 rfl]
        rfl

/-- Numbers and infinities are the same if their values are. -/
theorem sameValue_eq (hx : x.IsNumeric) (hy : y.IsNumeric) :
    x.sameValue y = .ok (Ord.compare x.toExtended y.toExtended == .eq) := by
  have hmap : x.sameValue y = (x.compare y).map (· == .eq) := by
    cases hx <;> cases hy <;> rfl
  rw [hmap, compare_eq hx hy]
  rfl

/-- Two decimal numbers that are not both numbers or infinities have no number among them. -/
theorem exists_nan (h : ¬ (x.IsNumeric ∧ y.IsNumeric)) :
    (∃ s signaling p, x = nan s signaling p) ∨ ∃ s signaling p, y = nan s signaling p := by
  have hcases : ∀ d : Decimal, d.IsNumeric ∨ ∃ s signaling p, d = nan s signaling p := by
    intro d
    cases d with
    | finite x => exact .inl (.finite x)
    | infinity s => exact .inl (.infinity s)
    | nan s signaling p => exact .inr ⟨s, signaling, p, rfl⟩
  rcases hcases x with hx | hx
  · exact .inr ((hcases y).resolve_left fun hy => h ⟨hx, hy⟩)
  · exact .inl hx

/-- What is no number cannot be compared. -/
theorem compare_eq_error (h : ¬ (x.IsNumeric ∧ y.IsNumeric)) :
    x.compare y = .error .invalidOperation := by
  rcases exists_nan h with ⟨s, signaling, p, rfl⟩ | ⟨s, signaling, p, rfl⟩
  · rfl
  · cases x <;> rfl

/-- What is no number is the same as nothing, or cannot even be asked. -/
theorem sameValue_of_not_numeric (h : ¬ (x.IsNumeric ∧ y.IsNumeric)) :
    x.sameValue y = .ok false ∨ x.sameValue y = .error .invalidOperation := by
  rcases exists_nan h with ⟨s, signaling, p, rfl⟩ | ⟨s, signaling, p, rfl⟩
  · cases signaling
    · rcases y with _ | _ | ⟨t, _ | _, q⟩ <;> simp [sameValue]
    · exact .inr rfl
  · cases signaling <;> rcases x with _ | _ | ⟨t, _ | _, q⟩ <;> simp [sameValue]

end Decimal

namespace Usage

/-- The figures of a record, in the order in which they decide. -/
abbrev Rank := ℤ ×ₗ ℤ ×ₗ Extended ×ₗ Extended

/-- The rank of a record. -/
def rank (usage : Usage) : Rank :=
  toLex (usage.limit, toLex (usage.exitCode,
    toLex (usage.cpuSeconds.toExtended, usage.wallSeconds.toExtended)))

/-- The comparison of two records comes to seconds that are no number: nothing before them
decides. -/
def Undecided (x y : Usage) : Prop :=
  x.limit = y.limit ∧ x.exitCode = y.exitCode ∧
    (¬ (x.cpuSeconds.IsNumeric ∧ y.cpuSeconds.IsNumeric) ∨
      x.cpuSeconds.toExtended = y.cpuSeconds.toExtended ∧
        ¬ (x.wallSeconds.IsNumeric ∧ y.wallSeconds.IsNumeric))

/-! ## Seconds -/

theorem compareSeconds_eq {x y : Decimal} (hx : x.IsNumeric) (hy : y.IsNumeric) :
    compareSeconds x y = .ok (Ord.compare x.toExtended y.toExtended) := by
  rw [compareSeconds, Decimal.sameValue_eq hx hy, Decimal.compare_eq hx hy]
  cases h : Ord.compare x.toExtended y.toExtended <;> rfl

theorem compareSeconds_eq_error {x y : Decimal} (h : ¬ (x.IsNumeric ∧ y.IsNumeric)) :
    compareSeconds x y = .error .invalidOperation := by
  rw [compareSeconds]
  rcases Decimal.sameValue_of_not_numeric h with hsame | hsame <;> rw [hsame]
  · exact Decimal.compare_eq_error h
  · rfl

/-! ## Records -/

variable {x y : Usage}

/-- Ranks are compared figure by figure. -/
theorem compare_rank (x y : Usage) :
    Ord.compare x.rank y.rank =
      ((Ord.compare x.limit y.limit).then (Ord.compare x.exitCode y.exitCode)).then
        ((Ord.compare x.cpuSeconds.toExtended y.cpuSeconds.toExtended).then
          (Ord.compare x.wallSeconds.toExtended y.wallSeconds.toExtended)) := by
  rw [Ordering.then_assoc]
  rfl

/-- **Records are compared as their ranks are.** -/
theorem compare_eq (hx : x.Numeric) (hy : y.Numeric) :
    x.compare y = .ok (Ord.compare x.rank y.rank) := by
  rw [compare, compare_rank, compareSeconds_eq hx.cpu hy.cpu, compareSeconds_eq hx.wall hy.wall]
  cases (Ord.compare x.limit y.limit).then (Ord.compare x.exitCode y.exitCode) with
  | lt => rfl
  | gt => rfl
  | eq => cases Ord.compare x.cpuSeconds.toExtended y.cpuSeconds.toExtended <;> rfl

/-- **Of two records the one with the higher rank is kept**, and the first of two with one rank. -/
theorem larger_eq (hx : x.Numeric) (hy : y.Numeric) :
    x.larger y = .ok (if x.rank < y.rank then y else x) := by
  rw [larger, compare_eq hy hx]
  cases h : Ord.compare y.rank x.rank with
  | lt => rw [if_neg (compare_lt_iff_lt.1 h).not_gt]; rfl
  | eq => rw [if_neg (compare_eq_iff_eq.1 h).not_gt]; rfl
  | gt => rw [if_pos (compare_gt_iff_gt.1 h)]; rfl

/-- **Two records cannot be compared exactly if the comparison comes to what is no number.** -/
theorem compare_eq_error_iff {signal : Signal} :
    x.compare y = .error signal ↔ signal = .invalidOperation ∧ x.Undecided y := by
  rw [compare, Undecided, ← and_assoc (a := x.limit = y.limit), ← compare_eq_iff_eq (a := x.limit),
    ← compare_eq_iff_eq (a := x.exitCode), ← Ordering.then_eq_eq]
  cases (Ord.compare x.limit y.limit).then (Ord.compare x.exitCode y.exitCode) with
  | lt => simp [pure, Except.pure]
  | gt => simp [pure, Except.pure]
  | eq =>
    by_cases hcpu : x.cpuSeconds.IsNumeric ∧ y.cpuSeconds.IsNumeric
    · rw [compareSeconds_eq hcpu.1 hcpu.2, ← compare_eq_iff_eq (a := x.cpuSeconds.toExtended)]
      cases Ord.compare x.cpuSeconds.toExtended y.cpuSeconds.toExtended with
      | lt => simp [bind, Except.bind, pure, Except.pure, hcpu]
      | gt => simp [bind, Except.bind, pure, Except.pure, hcpu]
      | eq =>
        by_cases hwall : x.wallSeconds.IsNumeric ∧ y.wallSeconds.IsNumeric
        · simp [bind, Except.bind, hcpu, hwall, compareSeconds_eq hwall.1 hwall.2]
        · simp [bind, Except.bind, hcpu, hwall, compareSeconds_eq_error hwall, eq_comm]
    · simp [bind, Except.bind, hcpu, compareSeconds_eq_error hcpu, eq_comm]

end Usage

end MemoryLimit
