import LedgerPost.Ledger.Error
import Mathlib.Tactic.Common

/-!
# Steps that may be refused

How a chain of steps in `Except` answers, in terms of the answers of its steps.
-/

namespace LedgerPost

variable {ε α β : Type}

instance decidableEqExcept [DecidableEq ε] [DecidableEq α] : DecidableEq (Except ε α)
  | .error e, .error e' => decidable_of_iff (e = e') (by simp)
  | .error _, .ok _ => isFalse (by simp)
  | .ok _, .error _ => isFalse (by simp)
  | .ok a, .ok a' => decidable_of_iff (a = a') (by simp)

lemma bind_eq_ok {x : Except ε α} {f : α → Except ε β} {b : β} :
    x >>= f = .ok b ↔ ∃ a, x = .ok a ∧ f a = .ok b := by
  cases x <;> simp [bind, Except.bind]

lemma map_eq_ok {x : Except ε α} {f : α → β} {b : β} :
    x.map f = .ok b ↔ ∃ a, x = .ok a ∧ f a = b := by
  cases x <;> simp [Except.map]

/-- A chain fails at its first step, or at the rest when the first step succeeds. -/
lemma bind_eq_error {x : Except ε α} {f : α → Except ε β} {e : ε} :
    x >>= f = .error e ↔ x = .error e ∨ ∃ a, x = .ok a ∧ f a = .error e := by
  cases x <;> simp [bind, Except.bind]

lemma map_eq_error {x : Except ε α} {f : α → β} {e : ε} :
    x.map f = .error e ↔ x = .error e := by
  cases x <;> simp [Except.map]

@[simp] lemma ofExcept_eq_self (x : Except ε α) :
    (MonadExcept.ofExcept x : Except ε α) = x := by
  cases x <;> rfl

/-- Two answers agree if they are the same error, or results that are related. -/
inductive Agree (r : α → β → Prop) : Except ε α → Except ε β → Prop
  | error (e : ε) : Agree r (.error e) (.error e)
  | ok {a : α} {b : β} (h : r a b) : Agree r (.ok a) (.ok b)

namespace Agree

variable {γ δ : Type} {r : α → β → Prop} {q : γ → δ → Prop} {x : Except ε α} {y : Except ε β}

/-- Chains agree if their first steps do, and if the rests do on related results. -/
lemma bind {f : α → Except ε γ} {g : β → Except ε δ} (h : Agree r x y)
    (hrest : ∀ a b, x = .ok a → y = .ok b → r a b → Agree q (f a) (g b)) :
    Agree q (x >>= f) (y >>= g) := by
  cases h with
  | error e => exact .error e
  | ok hab => exact hrest _ _ rfl rfl hab

/-- Chains with the same first step agree if the rests do on its result. -/
lemma bind_same {f : α → Except ε γ} {g : α → Except ε δ} (x : Except ε α)
    (hrest : ∀ a, x = .ok a → Agree q (f a) (g a)) : Agree q (x >>= f) (x >>= g) := by
  cases x with
  | error e => exact .error e
  | ok a => exact hrest a rfl

lemma exists_ok {a : α} (h : Agree r (.ok a : Except ε α) y) : ∃ b, y = .ok b ∧ r a b := by
  cases h with
  | ok hab => exact ⟨_, rfl, hab⟩

end Agree

/-- Answers that agree up to equality are equal. -/
lemma agree_eq_iff {x y : Except ε α} : Agree Eq x y ↔ x = y := by
  constructor
  · rintro (e | rfl)
    · rfl
    · rfl
  · rintro rfl
    cases x with
    | error e => exact .error e
    | ok a => exact .ok rfl

/-- Steps that all succeed make up one that succeeds. -/
lemma mapM_eq_ok {f : α → Except ε β} {g : α → β} {as : List α}
    (h : ∀ a ∈ as, f a = .ok (g a)) : as.mapM f = .ok (as.map g) := by
  induction as with
  | nil => rfl
  | cons a as ih =>
    rw [List.mapM_cons, h a List.mem_cons_self, ih fun b hb => h b (List.mem_cons_of_mem a hb)]
    rfl

end LedgerPost
