import LedgerPost.Ledger.Error
import Mathlib.Tactic.Common

/-!
# Steps with a state

How a chain of steps that may be refused runs from a state. A step that fails leaves behind the
state that it has reached.
-/

namespace LedgerPost

/-- Steps that may be refused and have a state. -/
abbrev Stateful (σ : Type) := ExceptT Error (StateM σ)

namespace Stateful

variable {σ α β : Type}

lemma ofExcept_pure (a : α) :
    (MonadExcept.ofExcept (pure a : Except Error α) : Stateful σ α) = pure a := rfl

lemma ofExcept_bind (x : Except Error α) (f : α → Except Error β) :
    (MonadExcept.ofExcept (x >>= f) : Stateful σ β) =
      MonadExcept.ofExcept x >>= fun a => MonadExcept.ofExcept (f a) := by
  cases x <;> rfl

lemma ofExcept_map (x : Except Error α) (f : α → β) :
    (MonadExcept.ofExcept (x.map f) : Stateful σ β) =
      MonadExcept.ofExcept x >>= fun a => pure (f a) := by
  cases x <;> rfl

/-- A chain of steps succeeds when each step succeeds in the state that the last one left. -/
lemma run_bind_eq_ok {x : Stateful σ α} {f : α → Stateful σ β} {b : β} {s s' : σ} :
    (x >>= f).run.run s = (.ok b, s') ↔
      ∃ a s₁, x.run.run s = (.ok a, s₁) ∧ (f a).run.run s₁ = (.ok b, s') := by
  rw [ExceptT.run_bind, StateT.run_bind]
  rcases x.run.run s with ⟨e | a, s₁⟩
  · constructor
    · intro h
      cases h
    · rintro ⟨a, s₁, h, -⟩
      cases h
  · constructor
    · intro h
      exact ⟨a, s₁, rfl, h⟩
    · rintro ⟨a', s₁', h, hf⟩
      cases h
      exact hf

/-- A chain of steps fails when its first step does, or when the rest does in the state that the
first step left. -/
lemma run_bind_eq_error {x : Stateful σ α} {f : α → Stateful σ β} {e : Error} {s s' : σ} :
    (x >>= f).run.run s = (.error e, s') ↔
      x.run.run s = (.error e, s') ∨
        ∃ a s₁, x.run.run s = (.ok a, s₁) ∧ (f a).run.run s₁ = (.error e, s') := by
  rw [ExceptT.run_bind, StateT.run_bind]
  rcases x.run.run s with ⟨e' | a, s₁⟩
  · constructor
    · intro h
      cases h
      exact .inl rfl
    · rintro (h | ⟨a, s₁, h, -⟩)
      · cases h
        rfl
      · cases h
  · constructor
    · intro h
      exact .inr ⟨a, s₁, rfl, h⟩
    · rintro (h | ⟨a', s₁', h, hf⟩)
      · cases h
      · cases h
        exact hf

/-- A chain goes on where its first step succeeds. -/
lemma run_bind_of_ok {x : Stateful σ α} {f : α → Stateful σ β} {a : α} {s s₁ : σ}
    (h : x.run.run s = (.ok a, s₁)) : (x >>= f).run.run s = (f a).run.run s₁ := by
  rw [ExceptT.run_bind, StateT.run_bind, h]
  rfl

/-- A chain ends where its first step fails. -/
lemma run_bind_of_error {x : Stateful σ α} {f : α → Stateful σ β} {e : Error} {s s₁ : σ}
    (h : x.run.run s = (.error e, s₁)) : (x >>= f).run.run s = (.error e, s₁) := by
  rw [ExceptT.run_bind, StateT.run_bind, h]
  rfl

/-- A chain of which only the first step changes the state. -/
lemma run_bind_eq {x : Stateful σ α} {y : Except Error α} {f : α → Stateful σ β}
    {g : α → Except Error β} {s s₁ : σ} (hx : x.run.run s = (y, s₁))
    (hf : ∀ a, (f a).run.run s₁ = (g a, s₁)) : (x >>= f).run.run s = (y >>= g, s₁) := by
  cases y with
  | error e => exact run_bind_of_error hx
  | ok a =>
    rw [run_bind_of_ok hx]
    exact hf a

lemma run_get_bind (f : σ → Stateful σ β) (s : σ) :
    ((get : Stateful σ σ) >>= f).run.run s = (f s).run.run s := rfl

/-- A step without a state leaves the state as it is. -/
lemma run_ofExcept (x : Except Error α) (s : σ) :
    (MonadExcept.ofExcept x : Stateful σ α).run.run s = (x, s) := by
  cases x <;> rfl

lemma run_ofExcept_eq_ok {x : Except Error α} {a : α} {s s' : σ} :
    (MonadExcept.ofExcept x : Stateful σ α).run.run s = (.ok a, s') ↔ x = .ok a ∧ s = s' := by
  rw [run_ofExcept, Prod.mk.injEq]

lemma run_ofExcept_eq_error {x : Except Error α} {e : Error} {s s' : σ} :
    (MonadExcept.ofExcept x : Stateful σ α).run.run s = (.error e, s') ↔ x = .error e ∧ s = s' := by
  rw [run_ofExcept, Prod.mk.injEq]

/-- Changes of the state take place one after the other. -/
lemma run_forM_modify (f : α → σ → σ) (as : List α) (s : σ) :
    (as.forM fun a => (modify (f a) : Stateful σ Unit)).run.run s =
      (.ok (), as.foldl (fun s a => f a s) s) := by
  induction as generalizing s with
  | nil => rfl
  | cons a as ih => exact ih (f a s)

end Stateful

end LedgerPost
