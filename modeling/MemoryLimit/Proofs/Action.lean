import MemoryLimit.Action

/-!
# Actions on more than one state

Two actions may be related in a way that carries over to whatever is put together from related ones,
such as a search from its trials. There are two such relations here. Seen through a view of its
state, one action is another one: it has the same outcome, and the state that the view shows is the
same. And a property of the state that an action keeps unless it fails is kept up to the first
failure.

## Main definitions

* `Action.Compositional` — a relation between actions that carries over.
* `Action.Mirrors` — seen through a view, an action is another one.
* `Action.KeepsOr` — a property still holds after an action, or the action failed in a given way.
-/
namespace MemoryLimit.Action

variable {σ τ υ α β : Type}

/-- A relation between actions that holds of whatever is put together from related ones. -/
structure Compositional (R : ∀ α : Type, Action τ α → Action σ α → Prop) : Prop where
  pure : ∀ {α : Type} (a : α), R α (pure a) (pure a)
  liftM : ∀ {α : Type} (x : Except Failure α), R α (liftM x) (liftM x)
  bind : ∀ {α β : Type} {y : Action τ α} {x : Action σ α} {k : α → Action τ β} {f : α → Action σ β},
    R α y x → (∀ a, R β (k a) (f a)) → R β (y >>= k) (x >>= f)

/-! ## Views of a state -/

/-- Seen through a view of its state, the first action is the second one. -/
def Mirrors (view : τ → σ) (y : Action τ α) (x : Action σ α) : Prop :=
  ∀ t, x.runOn (view t) = ((y.runOn t).1, view (y.runOn t).2)

section Mirrors

variable {view : τ → σ}

theorem compositional_mirrors (view : τ → σ) :
    Compositional fun α (y : Action τ α) (x : Action σ α) => Mirrors view y x where
  pure _ _ := rfl
  liftM x t := by rw [runOn_liftM, runOn_liftM]
  bind := by
    intro _ _ y x k f hfirst hnext t
    rw [runOn_bind, runOn_bind, hfirst t]
    cases y.runOn t with
    | mk outcome u =>
      cases outcome with
      | ok a => exact hnext a u
      | error e => rfl

theorem Mirrors.modify {f : τ → τ} {g : σ → σ} (h : ∀ t, g (view t) = view (f t)) :
    Mirrors view (modify f) (modify g) := by
  intro t
  rw [runOn_modify, runOn_modify, h]

theorem Mirrors.onFirst {y : Action τ α} {x : Action σ α} (h : Mirrors view y x) :
    Mirrors (Prod.map view (id : υ → υ)) y.onFirst x.onFirst := by
  rintro ⟨t, u⟩
  rw [Prod.map_apply, runOn_onFirst, runOn_onFirst, h t]
  rfl

theorem Mirrors.withSecond {y : Action (τ × υ) α} {x : Action (σ × υ) α} (initial : υ)
    (h : Mirrors (Prod.map view id) y x) :
    Mirrors view (withSecond initial y) (withSecond initial x) := by
  intro t
  have hrun : x.runOn (view t, initial) = _ := h (t, initial)
  rw [runOn_withSecond, runOn_withSecond, hrun]
  rfl

end Mirrors

/-! ## Up to the first failure -/

/-- The property still holds after the action if that ended with a value; what holds if it failed
may depend on the failure. -/
def KeepsOr (P : σ → Prop) (Q : Failure → σ → Prop) (x : Action σ α) : Prop :=
  ∀ s, P s → (∀ a t, x.runOn s = (.ok a, t) → P t) ∧ ∀ e t, x.runOn s = (.error e, t) → Q e t

/-- Actions keep a property one after the other, if it may also hold after a failure. -/
theorem compositional_keepsOr {P : σ → Prop} {Q : Failure → σ → Prop} (hQ : ∀ e s, P s → Q e s) :
    Compositional fun α (_ : Action σ α) x => KeepsOr P Q x where
  pure a s hs := by
    constructor
    · rintro _ _ ⟨⟩
      exact hs
    · rintro _ _ ⟨⟩
  liftM x s hs := by
    rw [runOn_liftM]
    cases x with
    | ok a =>
      constructor
      · rintro _ _ ⟨⟩
        exact hs
      · rintro _ _ ⟨⟩
    | error e =>
      constructor
      · rintro _ _ ⟨⟩
      · rintro _ _ ⟨⟩
        exact hQ e s hs
  bind := by
    intro _ _ _ x _ f hfirst hnext s hs
    obtain ⟨hok, herror⟩ := hfirst s hs
    rw [runOn_bind]
    cases hrun : x.runOn s with
    | mk outcome u =>
      cases outcome with
      | ok a => exact hnext a u (hok a u hrun)
      | error e =>
        constructor
        · rintro _ _ ⟨⟩
        · rintro _ _ ⟨⟩
          exact herror e u hrun

end MemoryLimit.Action
