import LedgerPost.Proofs.Transaction.StorageMass
import Mathlib.Algebra.Order.Field.Rat
import Mathlib.Algebra.Order.Group.MinMax
import Mathlib.Data.Nat.Cast.Order.Field
import Mathlib.Tactic.Linarith
import Mathlib.Tactic.Ring

/-!
# Storage mass as a rational number

Storage mass stands for a difference of sums of quotients. Each quotient is rounded down, which
takes off less than one; so what the outputs add and what the inputs take off are both too small,
and the difference is off by no more than the number of values on one of the two sides.
-/

namespace LedgerPost.StorageMass

open DoubleWords

/-! ### Masses that are not rounded -/

/-- The sum of the quotients of a constant by each value. -/
def harmonicIdeal (c : Nat) (values : List Nat) : ℚ :=
  c * (values.map fun v : Nat => 1 / (v : ℚ)).sum

/-- As many quotients of a constant by the mean of the values. -/
def meanIdeal (c : Nat) (values : List Nat) : ℚ := c * values.length ^ 2 / total values

/-- What the inputs take off, not rounded. -/
def idealRelief (c : Nat) (inputs : List Nat) (outputs : Nat) : ℚ :=
  if inputs.length ≤ 2 ∨ outputs ≤ 2 then harmonicIdeal c inputs else meanIdeal c inputs

/-- The storage mass by the values of a transaction as a rational number, no less than zero and no
more than the largest word. -/
def ideal (c : UInt64) (inputs outputs : List UInt64) : ℚ :=
  min (2 ^ 64 - 1) (max 0 (harmonicIdeal c.toNat (positive outputs)
    - idealRelief c.toNat (positive inputs) (positive outputs).length))

variable {c v : Nat} {values inputs : List Nat}

/-! ### Rounding -/

lemma div_lt_cast_div_add_one (c : Nat) (hv : 0 < v) : (c : ℚ) / v < (c / v : Nat) + 1 := by
  rw [div_lt_iff₀ (by exact_mod_cast hv), mul_comm]
  exact_mod_cast Nat.lt_mul_div_succ c hv

lemma harmonicIdeal_cons (c v : Nat) (values : List Nat) :
    harmonicIdeal c (v :: values) = c / v + harmonicIdeal c values := by
  rw [harmonicIdeal, harmonicIdeal, List.map_cons, List.sum_cons]
  ring

lemma cast_harmonicSum_cons (c v : Nat) (values : List Nat) :
    (harmonicSum c (v :: values) : ℚ) = (c / v : Nat) + harmonicSum c values := by
  rw [harmonicSum, List.map_cons, total_cons, Nat.cast_add]
  rfl

lemma harmonicSum_le_ideal (c : Nat) (values : List Nat) :
    (harmonicSum c values : ℚ) ≤ harmonicIdeal c values := by
  induction values with
  | nil => simp [harmonicSum, harmonicIdeal]
  | cons v values ih =>
    rw [cast_harmonicSum_cons, harmonicIdeal_cons]
    exact add_le_add Nat.cast_div_le ih

/-- Rounding takes off less than one for a further value. -/
lemma harmonicIdeal_cons_lt (hv : 0 < v)
    (h : harmonicIdeal c values ≤ harmonicSum c values + values.length) :
    harmonicIdeal c (v :: values) < harmonicSum c (v :: values) + (v :: values).length := by
  have hquotient := div_lt_cast_div_add_one c hv
  rw [cast_harmonicSum_cons, harmonicIdeal_cons, List.length_cons, Nat.cast_succ]
  linarith

lemma harmonicIdeal_le (hpos : ∀ v ∈ values, 0 < v) :
    harmonicIdeal c values ≤ harmonicSum c values + values.length := by
  induction values with
  | nil => simp [harmonicSum, harmonicIdeal]
  | cons v values ih =>
    rw [List.forall_mem_cons] at hpos
    exact (harmonicIdeal_cons_lt hpos.1 (ih hpos.2)).le

lemma harmonicIdeal_lt (hpos : ∀ v ∈ values, 0 < v) (hne : values ≠ []) :
    harmonicIdeal c values < harmonicSum c values + values.length := by
  cases values with
  | nil => exact absurd rfl hne
  | cons v values =>
    rw [List.forall_mem_cons] at hpos
    exact harmonicIdeal_cons_lt hpos.1 (harmonicIdeal_le hpos.2)

lemma meanIdeal_eq (c : Nat) (values : List Nat) :
    meanIdeal c values = ((c * values.length * values.length : Nat) : ℚ) / total values := by
  rw [meanIdeal]
  push_cast
  ring

lemma meanSum_le_ideal (c : Nat) (values : List Nat) :
    (meanSum c values : ℚ) ≤ meanIdeal c values := by
  rw [meanIdeal_eq]
  exact Nat.cast_div_le

lemma meanIdeal_lt (htotal : 0 < total values) : meanIdeal c values < meanSum c values + 1 := by
  rw [meanIdeal_eq]
  exact div_lt_cast_div_add_one _ htotal

/-- What the inputs take off is rounded by no more than one for every input. -/
lemma exactRelief_bounds (c outputs : Nat) (hpos : ∀ v ∈ inputs, 0 < v) :
    (exactRelief c inputs outputs : ℚ) ≤ idealRelief c inputs outputs ∧
      idealRelief c inputs outputs ≤ exactRelief c inputs outputs + inputs.length := by
  rw [exactRelief, idealRelief]
  split
  · exact ⟨harmonicSum_le_ideal c inputs, harmonicIdeal_le hpos⟩
  · rename_i hlong
    have hlength : 1 ≤ inputs.length := by omega
    obtain ⟨v, hv⟩ := List.exists_mem_of_length_pos hlength
    have hmean := meanIdeal_lt (c := c) (Nat.lt_of_lt_of_le (hpos v hv) (le_total hv))
    have hone : (1 : ℚ) ≤ inputs.length := by exact_mod_cast hlength
    exact ⟨meanSum_le_ideal c inputs, by linarith⟩

/-! ### The bound on the error -/

lemma cast_sub_eq_max (m n : Nat) : ((m - n : Nat) : ℚ) = max 0 ((m : ℚ) - n) := by
  rcases Nat.le_total n m with h | h
  · have hle : (n : ℚ) ≤ m := by exact_mod_cast h
    rw [max_eq_right (sub_nonneg.mpr hle), Nat.cast_sub h]
  · have hle : (m : ℚ) ≤ n := by exact_mod_cast h
    rw [max_eq_left (sub_nonpos.mpr hle), Nat.sub_eq_zero_of_le h, Nat.cast_zero]

/-- Cutting off at zero and at the largest word brings numbers no further apart. -/
lemma abs_cut_sub_cut_le (top x y : ℚ) :
    |min top (max 0 x) - min top (max 0 y)| ≤ |x - y| := by
  calc |min top (max 0 x) - min top (max 0 y)|
    _ ≤ max |top - top| |max 0 x - max 0 y| := abs_min_sub_min_le_max _ _ _ _
    _ = |max 0 x - max 0 y| := by simp
    _ ≤ max |0 - 0| |x - y| := abs_max_sub_max_le_max _ _ _ _
    _ = |x - y| := by simp

/-- The mass is the rational number up to the number of values on one side. It is found without a
division by zero and without a step that leaves the double words, and it depends neither on values
that vanish nor on the order of the others. -/
theorem ofValues_accurate (c : UInt64) {inputs outputs : List UInt64}
    (hin : inputs.length < 2 ^ 32) (hout : outputs.length < 2 ^ 32) :
    compute strict c inputs outputs = some (ofValues c inputs outputs) ∧
    |((ofValues c inputs outputs).toNat : ℚ) - ideal c inputs outputs| ≤
      (max (positive inputs).length (positive outputs).length : Nat) ∧
    ∀ inputs' outputs', (positive inputs').Perm (positive inputs) →
      (positive outputs').Perm (positive outputs) →
      ofValues c inputs' outputs' = ofValues c inputs outputs := by
  have hin' : inputs.length ≤ UInt32.size := Nat.le_of_lt hin
  have hout' : outputs.length ≤ UInt32.size := Nat.le_of_lt hout
  refine ⟨?_, ?_, fun inputs' outputs' => ofValues_congr⟩
  · rw [compute_eq exact_strict hin' hout', ofValues, compute_eq exact_saturating hin' hout']
    rfl
  · have hmade := harmonicSum_le_ideal c.toNat (positive outputs)
    have hmade' : harmonicIdeal c.toNat (positive outputs) ≤
        harmonicSum c.toNat (positive outputs) + (positive outputs).length :=
      harmonicIdeal_le (pos_of_mem_positive outputs)
    obtain ⟨hconsumed, hconsumed'⟩ := exactRelief_bounds c.toNat (positive outputs).length
      (pos_of_mem_positive inputs)
    have htop : ((UInt64.size - 1 : Nat) : ℚ) = 2 ^ 64 - 1 := by norm_num [UInt64.size]
    rw [toNat_ofValues hin' hout', exactMass, Nat.cast_min, cast_sub_eq_max, htop, min_comm, ideal]
    refine (abs_cut_sub_cut_le _ _ _).trans ?_
    rw [abs_le, Nat.cast_max]
    constructor
    · linarith [le_max_right ((positive inputs).length : ℚ) (positive outputs).length]
    · linarith [le_max_left ((positive inputs).length : ℚ) (positive outputs).length]

/-- Three inputs that do not vanish, and three outputs. -/
theorem trio_accurate :
    let inputs : List UInt64 := [100000000, 100000000, 1000000, 0]
    let outputs : List UInt64 := [1000000, 1000000, 1000000]
    inputs.length < 2 ^ 32 ∧ outputs.length < 2 ^ 32 ∧
      ofValues 1000000000000 inputs outputs = 2955224 ∧
      compute strict 1000000000000 inputs outputs = some 2955224 ∧
      |(2955224 : ℚ) - ideal 1000000000000 inputs outputs| ≤ 3 ∧
      ofValues 1000000000000 [0, 1000000, 0, 100000000, 100000000] (0 :: outputs) = 2955224 := by
  intro inputs outputs
  have hin : inputs.length < 2 ^ 32 := by decide
  have hout : outputs.length < 2 ^ 32 := by decide
  have hvalue : ofValues 1000000000000 inputs outputs = 2955224 := by decide +kernel
  obtain ⟨hstrict, herror, hsame⟩ := ofValues_accurate 1000000000000 hin hout
  rw [hvalue] at hstrict herror hsame
  refine ⟨hin, hout, hvalue, hstrict, ?_, hsame _ _ (by decide) (by decide)⟩
  exact_mod_cast herror

end LedgerPost.StorageMass
