import Mathlib
import MemoryLimit.Proofs.Usage.Rank
import MemoryLimit.Proofs.Usage.Text

/-!
# Merging keeps the largest record

A history into which records are merged has, for each workload, one of those that it had or that
were merged, and none of them has a higher rank. That does not depend on the order of the records,
nor on how often each was merged, so neither does the history, up to the spelling of the seconds.

## Main definitions

* `Usage.IsLargest` — a record of a set with the highest rank.
* `History.mergeAll` — records are merged one after the other.
* `History.offered` — the records that a history has or that are merged into it.
* `History.KeepsLargest` — every workload has the largest of the records that were offered.
* `History.Agrees` — two histories have the same workloads with equal records.

## Main statements

* `History.mergeAll_spec` — merging records leaves the largest of those offered.
* `History.KeepsLargest.agrees` — histories that keep the largest of the same records agree.
-/
namespace MemoryLimit

namespace Usage

/-- A record of a set, of which none in the set has a higher rank. -/
structure IsLargest (S : Set Usage) (kept : Usage) : Prop where
  mem : kept ∈ S
  rank_le : ∀ usage ∈ S, usage.rank ≤ kept.rank

variable {S T : Set Usage} {x y kept : Usage}

/-- The largest records of a set have one rank. -/
theorem IsLargest.rank_eq (hx : IsLargest S x) (hy : IsLargest S y) : x.rank = y.rank :=
  le_antisymm (hy.rank_le x hx.mem) (hx.rank_le y hy.mem)

/-- The largest record of some may take their place where a larger one is looked for. -/
theorem IsLargest.union (hkept : IsLargest S kept) (hx : IsLargest ({kept} ∪ T) x) :
    IsLargest (S ∪ T) x where
  mem := by
    rcases hx.mem with hmem | hmem
    · exact .inl (Set.mem_singleton_iff.1 hmem ▸ hkept.mem)
    · exact .inr hmem
  rank_le := by
    rintro usage (hmem | hmem)
    · exact (hkept.rank_le usage hmem).trans (hx.rank_le kept (.inl rfl))
    · exact hx.rank_le usage (.inr hmem)

/-- Of two records whose figures are numbers, the larger one is kept. -/
theorem larger_spec (hx : x.Numeric) (hy : y.Numeric) :
    ∃ kept, x.larger y = .ok kept ∧ IsLargest {x, y} kept := by
  rw [larger_eq hx hy]
  split <;> rename_i hlt
  · refine ⟨y, rfl, .inr rfl, ?_⟩
    rintro usage (rfl | rfl)
    · exact hlt.le
    · exact le_rfl
  · refine ⟨x, rfl, .inl rfl, ?_⟩
    rintro usage (rfl | rfl)
    · exact le_rfl
    · exact not_lt.1 hlt

end Usage

namespace History

variable {g h : History} {id : RawText} {usage kept : Usage} {records : List (RawText × Usage)}

/-- The history after records were merged, one after the other. -/
def mergeAll (h : History) (records : List (RawText × Usage)) : Except Signal History :=
  records.foldlM (fun h (id, usage) => h.merge id usage) h

/-- The records of a workload that a history has or that are merged into it. -/
def offered (h : History) (records : List (RawText × Usage)) (id : RawText) : Set Usage :=
  {usage | h.get? id = some usage} ∪ {usage | (id, usage) ∈ records}

/-- Every workload has the largest of the records that were offered for it. -/
structure KeepsLargest (h : History) (offered : RawText → Set Usage) : Prop where
  eq_empty : ∀ id, h.get? id = none → offered id = ∅
  isLargest : ∀ id kept, h.get? id = some kept → Usage.IsLargest (offered id) kept

/-- Two histories have the same workloads, and equal records of each: the same integers, and seconds
of the same value. -/
structure Agrees (g h : History) : Prop where
  ids : (g.entries.map Prod.fst).Perm (h.entries.map Prod.fst)
  rank_eq : ∀ id x y, g.get? id = some x → h.get? id = some y → x.rank = y.rank

theorem mergeAll_cons (h : History) (id : RawText) (usage : Usage) (rest : List (RawText × Usage)) :
    h.mergeAll ((id, usage) :: rest) = h.merge id usage >>= fun merged => merged.mergeAll rest := by
  rw [mergeAll, List.foldlM_cons]
  rfl

/-! ## Putting a record -/

theorem Numeric.put (hh : h.Numeric) (id : RawText) (hkept : kept.Numeric) :
    (h.put id kept).Numeric := by
  intro entry hentry
  rcases mem_put hentry with hold | rfl
  · exact hh entry hold
  · exact hkept

theorem mem_ids_iff : id ∈ h.entries.map Prod.fst ↔ h.get? id ≠ none := by
  refine ⟨fun hmem hnone => ?_, fun hsome => by_contra fun hmem => hsome (get?_eq_none hmem)⟩
  obtain ⟨entry, hentry, rfl⟩ := List.mem_map.1 hmem
  rw [get?, List.lookup_eq_none_iff] at hnone
  simpa using hnone entry hentry

/-- A record that is put leaves one record of each workload. -/
theorem Distinct.put (hh : h.Distinct) (id : RawText) (kept : Usage) : (h.put id kept).Distinct := by
  by_cases hcontains : h.contains id
  · have hids :
        (h.entries.map fun entry => if entry.1 = id then (id, kept) else entry).map Prod.fst =
          h.entries.map Prod.fst := by
      rw [List.map_map]
      refine List.map_congr_left fun entry _ => ?_
      by_cases heq : entry.1 = id <;> simp [heq]
    rw [Distinct, History.put, if_pos hcontains, hids]
    exact hh
  · have hnew : id ∉ h.entries.map Prod.fst := by
      rw [mem_ids_iff, not_not]
      simpa [contains] using hcontains
    rw [Distinct, History.put, if_neg hcontains, List.map_append, List.map_singleton]
    exact List.nodup_append.2 ⟨hh, List.nodup_singleton id, by
      rintro other hother _ hid rfl
      obtain rfl := List.mem_singleton.1 hid
      exact hnew hother⟩

/-! ## Merging one record -/

/-- A record is merged by putting the larger of it and the one that is there. -/
theorem merge_spec (hh : h.Numeric) (id : RawText) (hu : usage.Numeric) :
    ∃ kept, h.merge id usage = .ok (h.put id kept) ∧ kept.Numeric ∧
      Usage.IsLargest (h.offered [(id, usage)] id) kept := by
  rw [merge, mergedWith, offered]
  cases hget : h.get? id with
  | none => exact ⟨usage, rfl, hu, .inr (by simp), by simp⟩
  | some current =>
    obtain ⟨kept, hkept, hlargest⟩ := Usage.larger_spec (hh.get? hget) hu
    have hset : {u | some current = some u} ∪ {u | (id, u) ∈ [(id, usage)]} = {current, usage} := by
      ext u
      simp [eq_comm, or_comm]
    refine ⟨kept, by simp [hkept, Except.map], ?_, hset ▸ hlargest⟩
    rcases hlargest.mem with rfl | rfl
    · exact hh.get? hget
    · exact hu

/-- The largest records of a history with one record put are the largest after it was merged. -/
theorem KeepsLargest.of_put (hkept : Usage.IsLargest (h.offered [(id, usage)] id) kept)
    (hg : g.KeepsLargest ((h.put id kept).offered records)) :
    g.KeepsLargest (h.offered ((id, usage) :: records)) := by
  have hself : (h.put id kept).offered records id = {kept} ∪ {u | (id, u) ∈ records} := by
    ext u
    simp [offered, get?_put, eq_comm]
  have hcons : h.offered ((id, usage) :: records) id =
      h.offered [(id, usage)] id ∪ {u | (id, u) ∈ records} := by
    rw [offered, offered, Set.union_assoc]
    congr 1
    ext u
    simp
  have hother : ∀ other, other ≠ id →
      (h.put id kept).offered records other = h.offered ((id, usage) :: records) other := by
    intro other hne
    ext u
    simp [offered, get?_put, hne]
  constructor
  · intro other hnone
    by_cases hid : other = id
    · have hempty := hg.eq_empty other hnone
      rw [hid, hself] at hempty
      exact absurd (hempty ▸ Or.inl rfl : kept ∈ (∅ : Set Usage)) (Set.notMem_empty kept)
    · rw [← hother other hid]
      exact hg.eq_empty other hnone
  · intro other last hlast
    have hlargest := hg.isLargest other last hlast
    by_cases hid : other = id
    · rw [hid, hself] at hlargest
      rw [hid, hcons]
      exact hkept.union hlargest
    · rwa [← hother other hid]

/-! ## Merging many records -/

/-- **Merging records leaves every workload the largest of those offered for it.** -/
theorem mergeAll_spec (hh : h.Numeric) (hrecords : ∀ entry ∈ records, entry.2.Numeric) :
    ∃ g, h.mergeAll records = .ok g ∧ (h.Distinct → g.Distinct) ∧
      g.KeepsLargest (h.offered records) := by
  induction records generalizing h with
  | nil =>
    refine ⟨h, rfl, id, fun id hnone => by simp [offered, hnone], fun id kept hkept => ?_⟩
    constructor <;> simp [offered, hkept]
  | cons entry rest ih =>
    obtain ⟨id, usage⟩ := entry
    obtain ⟨kept, hmerge, hnumeric, hlargest⟩ := merge_spec hh id (hrecords (id, usage) (by simp))
    obtain ⟨g, hrest, hdistinct, hkeeps⟩ := ih (hh.put id hnumeric)
      (fun other hother => hrecords other (List.mem_cons_of_mem _ hother))
    refine ⟨g, ?_, fun hd => hdistinct (hd.put id kept), hkeeps.of_put hlargest⟩
    rw [mergeAll_cons, hmerge]
    exact hrest

theorem KeepsLargest.get?_eq_none_iff {offered : RawText → Set Usage} (hh : h.KeepsLargest offered) :
    h.get? id = none ↔ offered id = ∅ := by
  refine ⟨hh.eq_empty id, fun hempty => ?_⟩
  cases hget : h.get? id with
  | none => rfl
  | some kept => exact absurd (hempty ▸ (hh.isLargest id kept hget).mem) (Set.notMem_empty kept)

/-- **Histories that keep the largest of the same records agree.** -/
theorem KeepsLargest.agrees {offered : RawText → Set Usage} (hg : g.KeepsLargest offered)
    (hh : h.KeepsLargest offered) (hgd : g.Distinct) (hhd : h.Distinct) : g.Agrees h where
  ids := (List.perm_ext_iff_of_nodup hgd hhd).2 fun id => by
    rw [mem_ids_iff, mem_ids_iff, Ne, Ne, hg.get?_eq_none_iff, hh.get?_eq_none_iff]
  rank_eq id x y hx hy := (hg.isLargest id x hx).rank_eq (hh.isLargest id y hy)

/-- What is offered depends on which records are merged only. -/
theorem offered_congr {others : List (RawText × Usage)}
    (hsame : ∀ entry, entry ∈ others ↔ entry ∈ records) : h.offered others = h.offered records := by
  funext id
  ext u
  simp [offered, hsame]

end History

end MemoryLimit
