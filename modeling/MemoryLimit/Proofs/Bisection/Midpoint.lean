import Mathlib
import MemoryLimit.Bisection.Interval
import MemoryLimit.Proofs.Decimal.Arithmetic

/-!
# Midpoints

A midpoint is a rounded sum, halved and rounded again. Where neither needs rounding it is the
exact midpoint. Where they do, it still lies between the bounds, provided that the doubles of
the bounds need no rounding; and then its own double needs none.

## Main definitions

* `Interval.Bounded` — both bounds are neither too large nor too small for the calculations.
* `Number.HasRoom` — a number and its double need no rounding to sixty digits.

## Main statements

* `Interval.midpoint_spec` — the two roundings of a midpoint.
* `Interval.midpoint_mem` — a midpoint lies between bounds that have room, and has room itself.
* `Interval.narrow_spec` — the half of an interval keeps one bound and takes the midpoint for
  the other.
-/
namespace MemoryLimit

/-- A number and its double need no rounding to sixty digits. -/
structure Number.HasRoom (x : Number) : Prop where
  fits : x.coefficient < 10 ^ 60
  double : Representable 60 (2 * x.toRat)

theorem Number.hasRoom_of_lt {x : Number} (h : x.coefficient < 10 ^ 59) : x.HasRoom where
  fits := h.trans (by norm_num)
  double := by
    refine ⟨2 * x.signedCoefficient, x.exponent, ?_, ?_⟩
    · cases hs : x.negative <;> simp [signedCoefficient, hs, abs_mul] <;> omega
    · rw [toRat]
      push_cast
      ring

namespace Interval

theorem toRat_le (i : Interval) : i.low.toRat ≤ i.high.toRat :=
  (Number.le_iff _ _).1 i.ordered

/-- The last digits of both bounds stand in places from `least` on, and their magnitudes are at most
`most`. -/
structure Bounded (least : ℤ) (most : ℚ) (i : Interval) : Prop where
  least_le_low : least ≤ i.low.exponent
  least_le_high : least ≤ i.high.exponent
  low_le : |i.low.toRat| ≤ most
  high_le : |i.high.toRat| ≤ most

variable {i : Interval} {least : ℤ} {most : ℚ}

/-- **A midpoint is the sum of the bounds, rounded, halved, and rounded.** -/
theorem midpoint_spec (hi : i.Bounded least most)
    (hleast : context.minUnit ≤ least - 1) (hmax : least ≤ context.maxExponent)
    (hmost : 2 * most ≤ (10 : ℚ) ^ context.maxExponent) :
    ∃ s m : Number, i.midpoint = .ok m ∧ s.coefficient < 10 ^ 60 ∧
      Rounds 60 (i.low.toRat + i.high.toRat) s.toRat ∧
      context.IsResult (least - 1) (s.toRat / 2) m := by
  have hlow := hi.low_le
  have hhigh := hi.high_le
  obtain ⟨s, hs, hsum⟩ := context.add_spec (by decide) least (x := i.low) (y := i.high)
    (by linarith [hi.least_le_low]) (by linarith [hi.least_le_high]) hi.least_le_low
    hi.least_le_high hmax (by linarith) (by linarith)
  have hsbig : |s.toRat| ≤ (10 : ℚ) ^ context.maxExponent :=
    hsum.rounds.abs_le_of_le (representable_ten_zpow _ _)
      ((abs_add_le _ _).trans (by linarith))
  obtain ⟨m, hm, hhalf⟩ := context.half_spec (by decide) (least - 1) (x := s) hsum.fits
    (by linarith [hsum.least_le]) (by linarith [hsum.least_le]) (by linarith) hsbig
  refine ⟨s, m, ?_, hsum.fits, hsum.rounds, hhalf⟩
  simp only [midpoint, hs]
  exact hm

/-- A midpoint is exact where neither the sum nor its half needs rounding. -/
theorem midpoint_eq {s m : Number} (hs : Rounds 60 (i.low.toRat + i.high.toRat) s.toRat)
    (hm : Rounds 60 (s.toRat / 2) m.toRat)
    (hsum : Representable 60 (i.low.toRat + i.high.toRat))
    (hhalf : Representable 60 ((i.low.toRat + i.high.toRat) / 2)) :
    m.toRat = (i.low.toRat + i.high.toRat) / 2 := by
  rw [hs.eq_of_representable hsum] at hm
  exact hm.eq_of_representable hhalf

/-- **A midpoint lies between bounds that have room, and has room itself.** -/
theorem midpoint_mem (hl : i.low.HasRoom) (hh : i.high.HasRoom) {s m : Number}
    (hsfits : s.coefficient < 10 ^ 60)
    (hs : Rounds 60 (i.low.toRat + i.high.toRat) s.toRat)
    (hm : context.IsResult least (s.toRat / 2) m) :
    i.low.toRat ≤ m.toRat ∧ m.toRat ≤ i.high.toRat ∧ m.HasRoom := by
  have hle := i.toRat_le
  have hslow := hs.le_of_le _ hl.double (by linarith)
  have hshigh := hs.ge_of_ge _ hh.double (by linarith)
  refine ⟨hm.rounds.le_of_le _ (Number.representable hl.fits) (by linarith),
    hm.rounds.ge_of_ge _ (Number.representable hh.fits) (by linarith), hm.fits, ?_⟩
  refine Rounds.representable_double (c := s.signedCoefficient) (e := s.exponent) (by norm_num) ?_
    hm.rounds (Number.representable hm.fits)
  cases hsign : s.negative <;> simp [Number.signedCoefficient, hsign] <;> omega

/-- A midpoint differs little from the exact one. -/
theorem abs_midpoint_sub_le (hi : i.Bounded least most) (hl : i.low.HasRoom) (hh : i.high.HasRoom)
    {s m : Number} (hs : Rounds 60 (i.low.toRat + i.high.toRat) s.toRat)
    (hm : Rounds 60 (s.toRat / 2) m.toRat) :
    |m.toRat - (i.low.toRat + i.high.toRat) / 2| * 10 ^ 59 ≤ 2 * most := by
  have hle := i.toRat_le
  obtain ⟨hlow1, hlow2⟩ := abs_le.1 hi.low_le
  obtain ⟨hhigh1, hhigh2⟩ := abs_le.1 hi.high_le
  have hslow := hs.le_of_le _ hl.double (by linarith)
  have hshigh := hs.ge_of_ge _ hh.double (by linarith)
  have hsum : |s.toRat - (i.low.toRat + i.high.toRat)| * 10 ^ 59 ≤ 2 * most :=
    hs.close.trans (abs_le.2 ⟨by linarith, by linarith⟩)
  have hhalf : |m.toRat - s.toRat / 2| * 10 ^ 59 ≤ most :=
    hm.close.trans (abs_le.2 ⟨by linarith, by linarith⟩)
  have htriangle : |m.toRat - (i.low.toRat + i.high.toRat) / 2| ≤
      |m.toRat - s.toRat / 2| + |s.toRat - (i.low.toRat + i.high.toRat)| / 2 := by
    have := abs_add_le (m.toRat - s.toRat / 2) ((s.toRat - (i.low.toRat + i.high.toRat)) / 2)
    rwa [abs_div, abs_two,
      show m.toRat - s.toRat / 2 + (s.toRat - (i.low.toRat + i.high.toRat)) / 2 =
        m.toRat - (i.low.toRat + i.high.toRat) / 2 by ring] at this
  calc |m.toRat - (i.low.toRat + i.high.toRat) / 2| * 10 ^ 59
      ≤ (|m.toRat - s.toRat / 2| + |s.toRat - (i.low.toRat + i.high.toRat)| / 2) * 10 ^ 59 :=
        mul_le_mul_of_nonneg_right htriangle (by positivity)
    _ = |m.toRat - s.toRat / 2| * 10 ^ 59 +
          |s.toRat - (i.low.toRat + i.high.toRat)| * 10 ^ 59 / 2 := by ring
    _ ≤ 2 * most := by linarith

/-! ## Halves of an interval -/

theorem between?_eq_ok {low high : Number} (h : low.toRat ≤ high.toRat) :
    between? low high = .ok ⟨low, high, (Number.le_iff _ _).2 h⟩ :=
  dif_pos _

/-- A point inside an interval leaves a half of it: the lower one if the point succeeded. -/
theorem between?_half {m : Number} (hlow : i.low.toRat ≤ m.toRat) (hhigh : m.toRat ≤ i.high.toRat)
    (succeeded : Bool) :
    ∃ left, (if succeeded then between? i.low m else between? m i.high) = .ok left ∧
      left.low = (if succeeded then i.low else m) ∧
      left.high = (if succeeded then m else i.high) := by
  cases succeeded
  · exact ⟨_, between?_eq_ok hhigh, rfl, rfl⟩
  · exact ⟨_, between?_eq_ok hlow, rfl, rfl⟩

/-- **A half keeps one bound and takes the midpoint for the other.** -/
theorem narrow_spec {m : Number} (hm : i.midpoint = .ok m) (hlow : i.low.toRat ≤ m.toRat)
    (hhigh : m.toRat ≤ i.high.toRat) (succeeded : Bool) :
    ∃ left, i.narrow succeeded = .ok left ∧
      left.low = (if succeeded then i.low else m) ∧
      left.high = (if succeeded then m else i.high) := by
  have hraise : i.narrow succeeded =
      if succeeded then between? i.low m else between? m i.high := by
    rw [narrow, hm]
    rfl
  rw [hraise]
  exact between?_half hlow hhigh succeeded

/-- What holds of both bounds and of the midpoint holds of both bounds of a half. -/
theorem forall_of_half {P : Number → Prop} {m low high : Number} {succeeded : Bool}
    (hl : low = if succeeded then i.low else m) (hr : high = if succeeded then m else i.high)
    (hlow : P i.low) (hhigh : P i.high) (hm : P m) : P low ∧ P high := by
  subst hl hr
  cases succeeded
  · exact ⟨hm, hhigh⟩
  · exact ⟨hlow, hm⟩

theorem hasBound_iff {x : Number} :
    i.hasBound x = true ↔ x.toRat = i.low.toRat ∨ x.toRat = i.high.toRat := by
  rw [hasBound, Bool.or_eq_true, Number.sameValue_iff, Number.sameValue_iff]

end Interval

end MemoryLimit
