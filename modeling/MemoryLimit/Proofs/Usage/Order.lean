import Mathlib
import MemoryLimit.Usage.History

/-!
# Records that can be compared

Two records are compared by their figures, and that has a result whenever the figures are numbers or
infinities. A history of such records can be merged with another one.

## Main definitions

* `Usage.Numeric`, `History.Numeric` — no figure is no number.

## Main statements

* `Usage.larger_ok` — of two such records one is kept.
* `Usage.larger_eq_ok` — of two records no other one is kept.
* `History.merge_ok` — a merge of such a record has a result.
-/
namespace MemoryLimit

/-- A number or an infinity. -/
inductive Decimal.IsNumeric : Decimal → Prop
  | finite (x : Number) : IsNumeric (.finite x)
  | infinity (negative : Bool) : IsNumeric (.infinity negative)

theorem Decimal.compare_ok {x y : Decimal} (hx : x.IsNumeric) (hy : y.IsNumeric) :
    ∃ order, x.compare y = .ok order := by
  cases hx <;> cases hy <;> exact ⟨_, rfl⟩

theorem Decimal.sameValue_ok {x y : Decimal} (hx : x.IsNumeric) (hy : y.IsNumeric) :
    ∃ same, x.sameValue y = .ok same := by
  cases hx <;> cases hy <;> exact ⟨_, rfl⟩

namespace Usage

/-- Both measured figures are numbers or infinities. -/
structure Numeric (usage : Usage) : Prop where
  cpu : usage.cpuSeconds.IsNumeric
  wall : usage.wallSeconds.IsNumeric

theorem compareSeconds_ok {x y : Decimal} (hx : x.IsNumeric) (hy : y.IsNumeric) :
    ∃ order, compareSeconds x y = .ok order := by
  obtain ⟨same, hsame⟩ := Decimal.sameValue_ok hx hy
  obtain ⟨order, horder⟩ := Decimal.compare_ok hx hy
  rw [compareSeconds, hsame]
  cases same
  · exact ⟨order, horder⟩
  · exact ⟨.eq, rfl⟩

/-- Records whose figures are numbers can be compared. -/
theorem compare_ok {x y : Usage} (hx : x.Numeric) (hy : y.Numeric) :
    ∃ order, x.compare y = .ok order := by
  obtain ⟨cpu, hcpu⟩ := compareSeconds_ok hx.cpu hy.cpu
  obtain ⟨wall, hwall⟩ := compareSeconds_ok hx.wall hy.wall
  rw [compare]
  cases (Ord.compare x.limit y.limit).then (Ord.compare x.exitCode y.exitCode) with
  | lt => exact ⟨.lt, rfl⟩
  | gt => exact ⟨.gt, rfl⟩
  | eq =>
    rw [hcpu]
    cases cpu with
    | lt => exact ⟨.lt, rfl⟩
    | gt => exact ⟨.gt, rfl⟩
    | eq => exact ⟨wall, hwall⟩

/-- Of two records whose figures are numbers, one is kept. -/
theorem larger_ok {x y : Usage} (hx : x.Numeric) (hy : y.Numeric) :
    ∃ kept, x.larger y = .ok kept := by
  obtain ⟨order, horder⟩ := compare_ok hy hx
  rw [larger, horder]
  cases order with
  | lt => exact ⟨x, rfl⟩
  | eq => exact ⟨x, rfl⟩
  | gt => exact ⟨y, rfl⟩

/-- Of two records no other one is kept. -/
theorem larger_eq_ok {x y kept : Usage} (h : x.larger y = .ok kept) : kept = x ∨ kept = y := by
  rw [larger] at h
  cases hcompare : y.compare x with
  | error signal => simp [hcompare, bind, Except.bind] at h
  | ok order =>
    rw [hcompare] at h
    cases order <;> cases h
    · exact .inl rfl
    · exact .inl rfl
    · exact .inr rfl

end Usage

namespace History

/-- All records have figures that are numbers or infinities. -/
def Numeric (h : History) : Prop :=
  ∀ entry ∈ h.entries, entry.2.Numeric

theorem Numeric.get? {h : History} (hh : h.Numeric) {id : RawText} {usage : Usage}
    (hget : h.get? id = some usage) : usage.Numeric := by
  obtain ⟨before, after, heq, -⟩ := List.lookup_eq_some_iff.1 hget
  exact hh (id, usage) (by simp [heq])

/-- A record whose figures are numbers can be merged into a history of such records. -/
theorem merge_ok {h : History} (hh : h.Numeric) (id : RawText) {usage : Usage} (hu : usage.Numeric) :
    ∃ merged, h.merge id usage = .ok merged := by
  rw [merge, mergedWith]
  cases hget : h.get? id with
  | none => exact ⟨_, rfl⟩
  | some current =>
    obtain ⟨kept, hkept⟩ := Usage.larger_ok (hh.get? hget) hu
    exact ⟨h.put id kept, by simp [hkept, Except.map]⟩

end History

end MemoryLimit
