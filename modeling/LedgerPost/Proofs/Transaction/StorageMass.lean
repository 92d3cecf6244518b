import LedgerPost.Transaction.Mass
import LedgerPost.Proofs.Ledger.Amount

/-!
# Storage mass

Storage mass is found in double words. As long as no step leaves them it is an exact number, which
is made of rounded quotients; and no step does for lists that can occur. Since it is made of counts
and sums, it does not depend on the order of the values.
-/

namespace LedgerPost

/-! ### Exact steps -/

namespace DoubleWords

/-- The steps that stop at a result that is no double word, and at a division by zero. -/
def strict : DoubleWords Option where
  result n := if n ≤ largest then some n else none
  quotient a b := if b = 0 then none else some (a / b)

/-- Steps that are exact for results that are double words and for divisors that do not vanish. -/
structure Exact {m : Type → Type} [Monad m] (words : DoubleWords m) : Prop where
  result : ∀ n ≤ largest, words.result n = pure n
  quotient : ∀ a b, b ≠ 0 → words.quotient a b = pure (a / b)

lemma exact_saturating : Exact saturating where
  result _ h := congrArg pure (Nat.min_eq_left h)
  quotient _ _ _ := rfl

lemma exact_strict : Exact strict where
  result _ h := if_pos h
  quotient _ _ h := if_neg h

end DoubleWords

namespace StorageMass

open DoubleWords

/-! ### Exact masses -/

/-- The exact sum of the rounded quotients of a constant by each value. -/
def harmonicSum (c : Nat) (values : List Nat) : Nat := total (values.map (c / ·))

/-- The exact number that stands for that sum when the mean of the values is taken. -/
def meanSum (c : Nat) (values : List Nat) : Nat :=
  c * values.length * values.length / total values

/-- What the inputs take off, exactly. -/
def exactRelief (c : Nat) (inputs : List Nat) (outputs : Nat) : Nat :=
  if inputs.length ≤ 2 ∨ outputs ≤ 2 then harmonicSum c inputs else meanSum c inputs

/-- The storage mass without a bound. -/
def exactMass (c : UInt64) (inputs outputs : List UInt64) : Nat :=
  harmonicSum c.toNat (positive outputs)
    - exactRelief c.toNat (positive inputs) (positive outputs).length

variable {c : Nat} {values values' : List Nat}

/-! ### Values that count -/

lemma mem_positive {values : List UInt64} {n : Nat} (h : n ∈ positive values) :
    0 < n ∧ n < UInt64.size := by
  obtain ⟨v, hv, rfl⟩ := List.mem_map.mp h
  have hpos : 0 < v := of_decide_eq_true (List.mem_filter.mp hv).2
  exact ⟨UInt64.lt_iff_toNat_lt.mp hpos, v.toNat_lt_size⟩

lemma pos_of_mem_positive (values : List UInt64) : ∀ n ∈ positive values, 0 < n :=
  fun _ h => (mem_positive h).1

lemma length_positive_le (values : List UInt64) : (positive values).length ≤ values.length := by
  rw [positive, List.length_map]
  exact List.length_filter_le _ _

lemma positive_perm {values values' : List UInt64} (h : values.Perm values') :
    (positive values).Perm (positive values') :=
  (h.filter _).map _

lemma total_le_mul {bound : Nat} (h : ∀ n ∈ values, n ≤ bound) :
    total values ≤ values.length * bound := by
  induction values with
  | nil => exact Nat.zero_le _
  | cons n values ih =>
    rw [List.forall_mem_cons] at h
    rw [total_cons, List.length_cons, Nat.add_mul, Nat.one_mul, Nat.add_comm]
    exact Nat.add_le_add (ih h.2) h.1

lemma le_total {n : Nat} (h : n ∈ values) : n ≤ total values := by
  induction h with
  | head values => exact Nat.le_add_right _ _
  | tail _ _ ih => exact Nat.le_trans ih (Nat.le_add_left _ _)

lemma harmonicSum_le (c : Nat) (values : List Nat) : harmonicSum c values ≤ values.length * c := by
  have h : ∀ n ∈ values.map (c / ·), n ≤ c := by
    intro n hn
    obtain ⟨v, -, rfl⟩ := List.mem_map.mp hn
    exact Nat.div_le_self c v
  rw [← List.length_map (c / ·)]
  exact total_le_mul h

/-! ### The computation is exact -/

section

variable {m : Type → Type} [Monad m] [LawfulMonad m] {words : DoubleWords m}

lemma harmonic_eq (hwords : words.Exact) (hpos : ∀ v ∈ values, 0 < v)
    (hle : harmonicSum c values ≤ largest) :
    harmonic words c values = pure (harmonicSum c values) := by
  have hsum : ∀ sum, sum + harmonicSum c values ≤ largest →
      values.foldlM (fun sum v => do words.result (sum + (← words.quotient c v))) sum =
        pure (sum + harmonicSum c values) := by
    clear hle
    induction values with
    | nil => exact fun _ _ => rfl
    | cons v values ih =>
      intro sum hle
      rw [List.forall_mem_cons] at hpos
      simp only [harmonicSum, List.map_cons, total_cons, ← Nat.add_assoc] at hle ⊢
      rw [List.foldlM_cons, hwords.quotient c v (Nat.ne_of_gt hpos.1), pure_bind,
        hwords.result _ (Nat.le_trans (Nat.le_add_right _ _) hle), pure_bind]
      exact ih hpos.2 _ hle
  have hzero := hsum 0
  rw [Nat.zero_add] at hzero
  exact hzero hle

lemma arithmetic_eq (hwords : words.Exact) (htotal : 0 < total values)
    (hle : total values ≤ largest) (hproduct : c * values.length * values.length ≤ largest) :
    arithmetic words c values = pure (meanSum c values) := by
  have hlength : 0 < values.length := by
    cases values with
    | nil => exact htotal
    | cons v values => exact Nat.succ_pos _
  have hfirst : c * values.length ≤ largest :=
    Nat.le_trans (Nat.le_mul_of_pos_right _ hlength) hproduct
  rw [arithmetic, hwords.result _ hfirst, pure_bind, hwords.result _ hproduct, pure_bind,
    hwords.result _ hle, pure_bind, hwords.quotient _ _ (Nat.ne_of_gt htotal), meanSum]

/-- Sums and products of as many words as there can be are double words. -/
lemma bounded_of_length {c : UInt64} {values : List UInt64} (h : values.length ≤ UInt32.size) :
    harmonicSum c.toNat (positive values) ≤ largest ∧ total (positive values) ≤ largest ∧
      c.toNat * (positive values).length * (positive values).length ≤ largest := by
  have hlength := Nat.le_trans (length_positive_le values) h
  have hword : ∀ n ∈ positive values, n ≤ UInt64.size - 1 := fun n hn =>
    Nat.le_sub_one_of_lt (mem_positive hn).2
  have hc : c.toNat ≤ UInt64.size - 1 := Nat.le_sub_one_of_lt c.toNat_lt_size
  have hproduct : (positive values).length * (UInt64.size - 1) ≤
      UInt32.size * (UInt64.size - 1) := Nat.mul_le_mul_right _ hlength
  have hsmall : UInt32.size * (UInt64.size - 1) ≤ largest := by decide
  refine ⟨?_, ?_, ?_⟩
  · calc harmonicSum c.toNat (positive values)
      _ ≤ (positive values).length * c.toNat := harmonicSum_le _ _
      _ ≤ (positive values).length * (UInt64.size - 1) := Nat.mul_le_mul_left _ hc
      _ ≤ largest := Nat.le_trans hproduct hsmall
  · exact Nat.le_trans (total_le_mul hword) (Nat.le_trans hproduct hsmall)
  · calc c.toNat * (positive values).length * (positive values).length
      _ ≤ (UInt64.size - 1) * UInt32.size * UInt32.size :=
        Nat.mul_le_mul (Nat.mul_le_mul hc hlength) hlength
      _ ≤ largest := by decide

/-- With steps that are exact the mass is the exact one, or the largest word. -/
theorem compute_eq (hwords : words.Exact) {c : UInt64} {inputs outputs : List UInt64}
    (hin : inputs.length ≤ UInt32.size) (hout : outputs.length ≤ UInt32.size) :
    compute words c inputs outputs =
      pure (UInt64.ofNat (min (exactMass c inputs outputs) (UInt64.size - 1))) := by
  obtain ⟨hharmonic, htotal, hproduct⟩ := bounded_of_length (c := c) hin
  have hrelief : relief words c.toNat (positive inputs) (positive outputs).length =
      pure (exactRelief c.toNat (positive inputs) (positive outputs).length) := by
    rw [relief, exactRelief]
    split
    · exact harmonic_eq hwords (pos_of_mem_positive inputs) hharmonic
    · rename_i hlong
      obtain ⟨v, hv⟩ : ∃ v, v ∈ positive inputs :=
        List.exists_mem_of_length_pos (by omega)
      have hpos : 0 < total (positive inputs) :=
        Nat.lt_of_lt_of_le (mem_positive hv).1 (le_total hv)
      exact arithmetic_eq hwords hpos htotal hproduct
  rw [compute, harmonic_eq hwords (pos_of_mem_positive outputs) (bounded_of_length hout).1,
    pure_bind, hrelief, pure_bind, exactMass]

end

/-- The mass is the exact one, or the largest word. -/
lemma toNat_ofValues {c : UInt64} {inputs outputs : List UInt64}
    (hin : inputs.length ≤ UInt32.size) (hout : outputs.length ≤ UInt32.size) :
    (ofValues c inputs outputs).toNat = min (exactMass c inputs outputs) (UInt64.size - 1) := by
  rw [ofValues, compute_eq exact_saturating hin hout]
  exact UInt64.toNat_ofNat_of_lt' (Nat.lt_of_le_of_lt (Nat.min_le_right _ _) (by decide))

/-! ### The order of the values -/

/-- A sum that saturates on the way is the exact sum, cut off at the end. -/
lemma harmonic_saturating (c : Nat) (values : List Nat) :
    (harmonic saturating c values).run = min (harmonicSum c values) largest := by
  have hsum : ∀ sum ≤ largest, (values.foldlM (fun sum v => do
      saturating.result (sum + (← saturating.quotient c v))) sum).run =
        min (sum + harmonicSum c values) largest := by
    induction values with
    | nil => exact fun sum h => (Nat.min_eq_left h).symm
    | cons v values ih =>
      intro sum _
      rw [List.foldlM_cons]
      refine (ih (min (sum + c / v) largest) (Nat.min_le_right _ _)).trans ?_
      simp only [harmonicSum, List.map_cons, total_cons]
      omega
  have hzero := hsum 0 (Nat.zero_le _)
  rw [Nat.zero_add] at hzero
  exact hzero

lemma harmonicSum_perm (h : values.Perm values') : harmonicSum c values = harmonicSum c values' :=
  total_perm (h.map _)

lemma harmonic_perm (h : values.Perm values') :
    harmonic saturating c values = harmonic saturating c values' := by
  have hrun := harmonic_saturating c values
  rw [harmonicSum_perm h, ← harmonic_saturating] at hrun
  exact hrun

lemma relief_perm (h : values.Perm values') (outputs : Nat) :
    relief saturating c values outputs = relief saturating c values' outputs := by
  rw [relief, relief, arithmetic, arithmetic, harmonic_perm h, total_perm h, h.length_eq]

/-- Neither values that vanish nor the order of the others matter. -/
lemma ofValues_congr {c : UInt64} {inputs inputs' outputs outputs' : List UInt64}
    (hin : (positive inputs).Perm (positive inputs'))
    (hout : (positive outputs).Perm (positive outputs')) :
    ofValues c inputs outputs = ofValues c inputs' outputs' := by
  rw [ofValues, ofValues, compute, compute, harmonic_perm hout, relief_perm hin, hout.length_eq]

/-- The order of the inputs and of the outputs does not matter. -/
theorem ofValues_perm {c : UInt64} {inputs inputs' outputs outputs' : List UInt64}
    (hin : inputs.Perm inputs') (hout : outputs.Perm outputs') :
    ofValues c inputs outputs = ofValues c inputs' outputs' :=
  ofValues_congr (positive_perm hin) (positive_perm hout)

end StorageMass

end LedgerPost
