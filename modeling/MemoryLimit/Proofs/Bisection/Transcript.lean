import Mathlib
import MemoryLimit.Action
import MemoryLimit.Proofs.Decimal.Value

/-!
# Predicates that remember

Whoever answers a bisection may answer in view of everything that was asked before. The most
general predicate that always answers is a function of the questions and answers so far and of
the point that is asked now; asking it extends the record.

## Main definitions

* `Transcript`, `Predicate` — the questions asked with their answers, and who answers them.
* `consult` — asks a predicate and keeps the record.
* `lastAnswered` — the last point with a given answer.
-/
namespace MemoryLimit

/-- The points that were asked, each with its answer, in order. -/
abbrev Transcript := List (Number × Bool)

/-- What is answered at a point after a transcript. -/
abbrev Predicate := Transcript → Number → Bool

/-- Asks a predicate at a point. The state is the transcript. -/
def consult (predicate : Predicate) (point : Number) : Action Transcript Bool := do
  let past ← get
  let answer := predicate past point
  set (past ++ [(point, answer)])
  return answer

@[simp] theorem runOn_consult (predicate : Predicate) (point : Number) (past : Transcript) :
    (consult predicate point).runOn past =
      (.ok (predicate past point), past ++ [(point, predicate past point)]) := rfl

/-- The last point with an answer, or the point given if there is none. -/
def lastAnswered (answer : Bool) (past : Transcript) (default : Number) : Number :=
  ((past.filter (·.2 == answer)).getLast?.map (·.1)).getD default

@[simp] theorem lastAnswered_nil (answer : Bool) (default : Number) :
    lastAnswered answer [] default = default := rfl

@[simp] theorem lastAnswered_append (answer : Bool) (past : Transcript) (default point : Number)
    (given : Bool) :
    lastAnswered answer (past ++ [(point, given)]) default =
      if given = answer then point else lastAnswered answer past default := by
  cases given <;> cases answer <;> simp [lastAnswered]

/-- The last point with an answer was asked, unless none was. -/
theorem lastAnswered_mem (answer : Bool) (past : Transcript) (default : Number) :
    lastAnswered answer past default = default ∨
      (lastAnswered answer past default, answer) ∈ past := by
  rw [lastAnswered]
  cases h : (past.filter (·.2 == answer)).getLast? with
  | none => exact .inl rfl
  | some entry =>
    obtain ⟨hmem, hanswer⟩ := List.mem_filter.1 (List.mem_of_getLast? h)
    rw [← beq_iff_eq.1 hanswer]
    exact .inr hmem

/-- The answers of a transcript were given by the predicate. -/
def Transcript.AnsweredBy (past : Transcript) (predicate : Predicate) : Prop :=
  ∀ entry ∈ past, ∃ before, entry.2 = predicate before entry.1

theorem Transcript.AnsweredBy.append {past : Transcript} {predicate : Predicate}
    (h : past.AnsweredBy predicate) (point : Number) :
    Transcript.AnsweredBy (past ++ [(point, predicate past point)]) predicate := by
  intro entry hentry
  rcases List.mem_append.1 hentry with hold | hnew
  · exact h entry hold
  · rw [List.mem_singleton.1 hnew]
    exact ⟨past, rfl⟩

end MemoryLimit
