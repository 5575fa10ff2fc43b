import MemoryLimit.Failure

/-!
# Actions

An action reads and changes a state and ends with a value or a failure. What it did to the state before
it failed remains, so `Action.runOn` always gives a final state. The laws below say what each way to
build an action does to a state; nothing else about actions is needed.

## Main definitions

* `Action` — a computation on a state that may fail.
* `Action.runOn` — its outcome and the final state.
* `Action.onFault`, `Action.thenAlways` — what follows a failure.
* `Action.onFirst`, `Action.withSecond` — actions on a part of a state.
-/
namespace MemoryLimit

/-- A computation on a state that may fail. What it did to the state before it failed remains. -/
abbrev Action (σ : Type) := ExceptT Failure (StateM σ)

namespace Action

variable {σ α : Type}

/-- An action from its effect on the state. -/
def ofFun (f : σ → Except Failure α × σ) : Action σ α :=
  ExceptT.mk (StateT.mk fun s => f s)

/-- The outcome and the final state of an action. -/
def runOn (action : Action σ α) (s : σ) : Except Failure α × σ :=
  (action.run).run s

/-- Answers a fault of the operating system; other failures pass. -/
def onFault (action : Action σ α) (handle : OsFault → Action σ α) : Action σ α :=
  tryCatch action fun
    | .os fault => handle fault
    | failure => throw failure

/-- Runs the second action after the first, whatever became of it. A failure of the second one wins. -/
def thenAlways (action : Action σ α) (last : Action σ Unit) : Action σ α := do
  let outcome ← tryCatch (Except.ok <$> action) (fun failure => pure (Except.error failure))
  last
  match outcome with
  | .ok a => pure a
  | .error failure => throw failure

variable {τ : Type}

/-- An action on one part of a state. -/
def onFirst (action : Action σ α) : Action (σ × τ) α :=
  ofFun fun (s, t) =>
    let (outcome, s) := action.runOn s
    (outcome, (s, t))

/-- Gives an action a second state for as long as it runs, and adds its final value to the outcome. -/
def withSecond (initial : τ) (action : Action (σ × τ) α) : Action σ (α × τ) :=
  ofFun fun s =>
    let (outcome, (s, t)) := action.runOn (s, initial)
    (outcome.map (·, t), s)

/-! ## Laws -/

@[simp] theorem runOn_pure (a : α) (s : σ) : (pure a : Action σ α).runOn s = (.ok a, s) := rfl

@[simp] theorem runOn_throw (e : Failure) (s : σ) :
    (throw e : Action σ α).runOn s = (.error e, s) := rfl

/-- A failure of the first action is the failure of both, and the second one does not run. -/
theorem runOn_bind {β : Type} (x : Action σ α) (f : α → Action σ β) (s : σ) :
    (x >>= f).runOn s =
      match x.runOn s with
      | (.ok a, t) => (f a).runOn t
      | (.error e, t) => (.error e, t) := by
  simp only [runOn, ExceptT.run_bind, StateT.run_bind]
  cases h : StateT.run x.run s with
  | mk outcome t => cases outcome <;> rfl

theorem runOn_bind_ok {β : Type} {x : Action σ α} {f : α → Action σ β} {s t : σ} {a : α}
    (h : x.runOn s = (.ok a, t)) : (x >>= f).runOn s = (f a).runOn t := by
  rw [runOn_bind, h]

theorem runOn_bind_error {β : Type} {x : Action σ α} {f : α → Action σ β} {s t : σ} {e : Failure}
    (h : x.runOn s = (.error e, t)) : (x >>= f).runOn s = (.error e, t) := by
  rw [runOn_bind, h]

/-- Both actions succeed if the two together do. -/
theorem runOn_bind_eq_ok {β : Type} {x : Action σ α} {f : α → Action σ β} {s t : σ} {b : β} :
    (x >>= f).runOn s = (.ok b, t) ↔ ∃ a u, x.runOn s = (.ok a, u) ∧ (f a).runOn u = (.ok b, t) := by
  rw [runOn_bind]
  cases x.runOn s with
  | mk outcome u =>
    cases outcome with
    | ok a =>
      constructor
      · exact fun h => ⟨a, u, rfl, h⟩
      · rintro ⟨_, _, ⟨⟩, h⟩
        exact h
    | error e =>
      constructor
      · rintro ⟨⟩
      · rintro ⟨_, _, ⟨⟩, _⟩

/-- An outcome that needs no state leaves the state alone. -/
@[simp] theorem runOn_liftM (x : Except Failure α) (s : σ) :
    (liftM x : Action σ α).runOn s = (x, s) := by
  cases x <;> rfl

@[simp] theorem runOn_get (s : σ) : (get : Action σ σ).runOn s = (.ok s, s) := rfl

@[simp] theorem runOn_modify (f : σ → σ) (s : σ) :
    (modify f : Action σ PUnit).runOn s = (.ok ⟨⟩, f s) := rfl

@[simp] theorem runOn_modifyGet (f : σ → α × σ) (s : σ) :
    (modifyGet f : Action σ α).runOn s = (.ok (f s).1, (f s).2) := rfl

@[simp] theorem runOn_ofFun (f : σ → Except Failure α × σ) (s : σ) : (ofFun f).runOn s = f s := rfl

/-- What an action did before it failed remains when its failure is answered. -/
theorem runOn_tryCatch (x : Action σ α) (handle : Failure → Action σ α) (s : σ) :
    (tryCatch x handle).runOn s =
      match x.runOn s with
      | (.ok a, t) => (.ok a, t)
      | (.error e, t) => (handle e).runOn t := by
  simp only [runOn, tryCatch, tryCatchThe, MonadExceptOf.tryCatch, ExceptT.tryCatch, ExceptT.run,
    ExceptT.mk, StateT.run, bind, StateT.bind]
  cases x s with
  | mk outcome t => cases outcome <;> rfl

/-- A function of the value of an action leaves its effect alone. -/
theorem runOn_map {β : Type} (f : α → β) (x : Action σ α) (s : σ) :
    (f <$> x).runOn s = ((x.runOn s).1.map f, (x.runOn s).2) := by
  rw [← bind_pure_comp, runOn_bind]
  cases x.runOn s with
  | mk outcome t => cases outcome <;> rfl

/-- Faults are answered in the state that they leave; other failures pass. -/
theorem runOn_onFault (x : Action σ α) (handle : OsFault → Action σ α) (s : σ) :
    (x.onFault handle).runOn s =
      match x.runOn s with
      | (.error (.os fault), t) => (handle fault).runOn t
      | ended => ended := by
  rw [onFault, runOn_tryCatch]
  cases x.runOn s with
  | mk outcome t =>
    cases outcome with
    | ok a => rfl
    | error e => cases e <;> rfl

/-- The second action runs in the state that the first one leaves, and its own failure wins. -/
theorem runOn_thenAlways (x : Action σ α) (last : Action σ Unit) (s : σ) :
    (x.thenAlways last).runOn s =
      match last.runOn (x.runOn s).2 with
      | (.ok _, t) => ((x.runOn s).1, t)
      | (.error e, t) => (.error e, t) := by
  simp only [thenAlways, runOn_bind, runOn_tryCatch, runOn_map]
  cases x.runOn s with
  | mk outcome t =>
    cases outcome <;>
      simp only [Except.map, runOn_pure] <;>
      cases last.runOn t with
      | mk ended u => cases ended <;> rfl

@[simp] theorem runOn_onFirst (x : Action σ α) (s : σ) (t : τ) :
    (x.onFirst : Action (σ × τ) α).runOn (s, t) = ((x.runOn s).1, ((x.runOn s).2, t)) := rfl

@[simp] theorem runOn_withSecond (t : τ) (x : Action (σ × τ) α) (s : σ) :
    (withSecond t x).runOn s =
      ((x.runOn (s, t)).1.map (·, (x.runOn (s, t)).2.2), (x.runOn (s, t)).2.1) := rfl

end Action

end MemoryLimit
