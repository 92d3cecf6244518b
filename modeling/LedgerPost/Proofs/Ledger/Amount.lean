import LedgerPost.Ledger.Amount
import LedgerPost.Proofs.Except
import Mathlib.Data.List.Perm.Basic

/-!
# Checked amounts

Sums of amounts that are checked once, at the end, against the size of a word. An answer is always
the exact sum, and there is one exactly when that sum fits.
-/

namespace LedgerPost

/-- The order of the numbers does not matter to their sum. -/
lemma total_perm {ms ns : List Nat} (h : ms.Perm ns) : total ms = total ns := by
  induction h with
  | nil => rfl
  | cons n _ ih => rw [total_cons, total_cons, ih]
  | swap m n ns =>
    simp only [total_cons]
    omega
  | trans _ _ ih ih' => exact ih.trans ih'

namespace Amount

/-- A number that fits is an amount. -/
lemma exists_ofNat_eq_ok {n : Nat} (h : n < UInt64.size) : ∃ a, ofNat n = .ok a :=
  ⟨UInt64.ofNat n, if_pos h⟩

lemma ofNat_eq_error {n : Nat} {e : Error} (h : ofNat n = .error e) : e = .amountOverflow := by
  rw [ofNat] at h
  split at h
  · cases h
  · cases h
    rfl

lemma ofNat_of_overflow {n : Nat} (h : UInt64.size ≤ n) : ofNat n = .error .amountOverflow :=
  if_neg (Nat.not_lt_of_le h)

lemma add_eq_ok_iff {a b c : UInt64} : add a b = .ok c ↔ c.toNat = a.toNat + b.toNat :=
  ofNat_eq_ok_iff

lemma mul_eq_ok_iff {a b c : UInt64} : mul a b = .ok c ↔ c.toNat = a.toNat * b.toNat :=
  ofNat_eq_ok_iff

lemma sum_eq_ok_iff {amounts : List UInt64} {t : UInt64} :
    sum amounts = .ok t ↔ t.toNat = exactSum amounts :=
  ofNat_eq_ok_iff

@[simp] lemma exactSum_nil : exactSum [] = 0 := rfl

@[simp] lemma exactSum_cons (a : UInt64) (amounts : List UInt64) :
    exactSum (a :: amounts) = a.toNat + exactSum amounts := rfl

@[simp] lemma exactSum_append (as bs : List UInt64) :
    exactSum (as ++ bs) = exactSum as + exactSum bs := by
  simp [exactSum]

lemma le_exactSum {a : UInt64} {amounts : List UInt64} (h : a ∈ amounts) :
    a.toNat ≤ exactSum amounts := by
  induction h with
  | head amounts => exact Nat.le_add_right _ _
  | tail b _ ih => exact Nat.le_trans ih (Nat.le_add_left _ _)

/-- The order of the amounts does not matter to their sum. -/
lemma exactSum_perm {as bs : List UInt64} (h : as.Perm bs) : exactSum as = exactSum bs :=
  total_perm (h.map _)

/-! ### Checks on the way -/

/-- A sum that is checked after every number is the exact sum, checked at the end. -/
lemma foldlM_ofNat (a : UInt64) (ns : List Nat) :
    ns.foldlM (fun sum n => ofNat (sum.toNat + n)) a = ofNat (a.toNat + total ns) := by
  induction ns generalizing a with
  | nil => exact (ofNat_toNat a).symm
  | cons n ns ih =>
    rw [List.foldlM_cons, total_cons, ← Nat.add_assoc]
    by_cases h : a.toNat + n < UInt64.size
    · obtain ⟨sum, hsum⟩ := exists_ofNat_eq_ok h
      rw [hsum, ← ofNat_eq_ok_iff.mp hsum]
      exact ih sum
    · have hle := Nat.le_of_not_lt h
      rw [ofNat_of_overflow hle, ofNat_of_overflow (Nat.le_add_right_of_le hle)]
      rfl

/-- Steps that fail on overflow alone. -/
def FailsOnOverflow {α : Type} (x : Except Error α) : Prop :=
  ∀ e, x = .error e → e = .amountOverflow

lemma failsOnOverflow_ofNat (n : Nat) : FailsOnOverflow (ofNat n) := fun _ => ofNat_eq_error

lemma FailsOnOverflow.bind {α β : Type} {x : Except Error α} {f : α → Except Error β}
    (hx : FailsOnOverflow x) (hf : ∀ a, FailsOnOverflow (f a)) : FailsOnOverflow (x >>= f) := by
  intro e h
  rcases bind_eq_error.mp h with h | ⟨a, -, h⟩
  · exact hx e h
  · exact hf a e h

/-- Steps that fail on overflow alone are one check, if it has the same results. -/
lemma FailsOnOverflow.eq_ofNat {x : Except Error UInt64} {n : Nat} (hx : FailsOnOverflow x)
    (h : ∀ a, x = .ok a ↔ a.toNat = n) : x = ofNat n := by
  cases hn : ofNat n with
  | ok a => exact (h a).mpr (ofNat_eq_ok_iff.mp hn)
  | error e =>
    cases x with
    | ok a =>
      rw [ofNat_eq_ok_iff.mpr ((h a).mp rfl)] at hn
      cases hn
    | error e' => rw [hx e' rfl, ofNat_eq_error hn]

end Amount

end LedgerPost
