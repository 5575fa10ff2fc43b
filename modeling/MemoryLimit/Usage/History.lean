import MemoryLimit.Usage.Line

/-!
# The history of workloads

A history keeps one record for each workload: the largest of those that were merged into it. Its text
has one line a record, in the order of the workloads' names; reading it merges the records of all
lines, whatever their order.

## Main definitions

* `History` — the records by workload.
* `History.merge` — adds a record, or keeps the larger one.
* `History.read`, `History.render` — a history from its text, and back.

## Main statements

* `History.get?_put` — the record of each workload after one was replaced or added.
-/
namespace MemoryLimit

/-- The records by workload, each workload once, in the order in which they first came. -/
structure History where
  entries : List (RawText × Usage) := []
deriving DecidableEq, Repr, Inhabited

namespace History

/-- The record of a workload. -/
def get? (h : History) (id : RawText) : Option Usage :=
  h.entries.lookup id

/-- Whether there is a record of a workload. -/
def contains (h : History) (id : RawText) : Bool :=
  (h.get? id).isSome

/-- The number of workloads. -/
def size (h : History) : Nat :=
  h.entries.length

/-- Replaces the record of a workload in its place, or adds one at the end. -/
def put (h : History) (id : RawText) (usage : Usage) : History :=
  if h.contains id then
    ⟨h.entries.map fun entry => if entry.1 = id then (id, usage) else entry⟩
  else ⟨h.entries ++ [(id, usage)]⟩

/-- A replaced record is found if there was one to be replaced. -/
theorem lookup_replace_self (id : RawText) (u : Usage) (l : List (RawText × Usage)) :
    (l.map fun entry => if entry.1 = id then (id, u) else entry).lookup id =
      (l.lookup id).map fun _ => u := by
  induction l with
  | nil => rfl
  | cons e rest ih =>
    obtain ⟨a, b⟩ := e
    by_cases ha : a = id
    · simp [ha]
    · have h : (id == a) = false := beq_eq_false_iff_ne.2 (Ne.symm ha)
      simp only [List.map_cons, ha, if_false, List.lookup_cons, h, ih]

/-- Other workloads keep their records. -/
theorem lookup_replace_of_ne {id other : RawText} (h : other ≠ id) (u : Usage)
    (l : List (RawText × Usage)) :
    (l.map fun entry => if entry.1 = id then (id, u) else entry).lookup other = l.lookup other := by
  induction l with
  | nil => rfl
  | cons e rest ih =>
    obtain ⟨a, b⟩ := e
    have ho : (other == id) = false := beq_eq_false_iff_ne.2 h
    by_cases ha : a = id <;> simp [List.lookup_cons, ha, ho, ih]

/-- After a record is put, its workload has it and the others have theirs. -/
theorem get?_put (h : History) (id other : RawText) (u : Usage) :
    (h.put id u).get? other = if other = id then some u else h.get? other := by
  by_cases hc : h.contains id
  · by_cases ho : other = id
    · obtain ⟨v, hv⟩ := Option.isSome_iff_exists.1 hc
      simp only [put, hc, if_true, get?, ho, lookup_replace_self]
      simp [show h.entries.lookup id = some v from hv]
    · simp only [put, hc, if_true, get?, ho, if_false, lookup_replace_of_ne ho]
  · have hn : h.entries.lookup id = none := by
      simpa only [contains, get?, Option.not_isSome_iff_eq_none] using hc
    by_cases ho : other = id
    · simp [put, hc, get?, ho, List.lookup_append, hn]
    · have hb : (other == id) = false := beq_eq_false_iff_ne.2 ho
      simp [put, hc, get?, ho, List.lookup_append, List.lookup_cons, hb]

/-- The record that a workload has after another one was merged: the larger of the two. -/
def mergedWith (h : History) (id : RawText) (usage : Usage) : Except Signal Usage :=
  match h.get? id with
  | none => .ok usage
  | some current => current.larger usage

/-- Adds a record of a workload, or keeps the larger of it and the one that is there. -/
def merge (h : History) (id : RawText) (usage : Usage) : Except Signal History :=
  (h.mergedWith id usage).map (h.put id)

/-- A history of records, merged one after the other. -/
def ofList (records : List (RawText × Usage)) : Except Signal History :=
  records.foldlM (fun h (id, usage) => h.merge id usage) {}

/-- The records in the order of the workloads' names. -/
def sorted (h : History) : List (RawText × Usage) :=
  h.entries.mergeSort fun a b => !(b.1 < a.1)

/-- Merges the record of a line, unless the line holds none. -/
def mergeLine (h : History) (line : List Char) : Except Failure History :=
  if isIgnored line then .ok h
  else do
    let (id, usage) ← readLine (String.ofList line)
    Signal.raise (h.merge id usage)

/-- The history that a text denotes. -/
def read (text : String) : Except Failure History :=
  (Text.splitLines text.toList).foldlM mergeLine {}

/-- The text of a history. -/
def render (h : History) : Except Failure RawText := do
  let lines ← h.sorted.mapM fun (id, usage) => writeLine id usage
  return RawText.join (lines.map (· ++ RawText.ofString "\n"))

end History

end MemoryLimit
