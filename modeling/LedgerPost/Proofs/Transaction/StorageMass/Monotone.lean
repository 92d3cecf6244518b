import LedgerPost.Proofs.Transaction.StorageMass.Accuracy
import Mathlib.Algebra.BigOperators.Fin
import Mathlib.Algebra.Order.BigOperators.Ring.Finset

/-!
# Storage mass and changes of the values

Storage mass falls when an output grows and rises when an input grows. A further output adds its
quotient, but a third one may change how the inputs are weighed: by their mean they take off no
more than by themselves, since the harmonic mean of values is at most their mean. What rounding
does to that comparison is less than one for every input.
-/

namespace LedgerPost.StorageMass

variable {c v v' outputs : Nat} {values inputs before after : List Nat}

/-! ### The two ways to weigh the inputs -/

lemma cast_total (values : List Nat) :
    (total values : ℚ) = (values.map fun v : Nat => (v : ℚ)).sum := by
  induction values with
  | nil => rfl
  | cons v values ih => rw [total_cons, Nat.cast_add, ih, List.map_cons, List.sum_cons]

/-- The harmonic mean is at most the arithmetic one. -/
lemma meanIdeal_le_harmonicIdeal (c : Nat) (hpos : ∀ v ∈ values, 0 < v) :
    meanIdeal c values ≤ harmonicIdeal c values := by
  have hmean : (values.length : ℚ) ^ 2 / total values ≤
      (values.map fun v : Nat => 1 / (v : ℚ)).sum := by
    have h := Finset.univ.sq_sum_div_le_sum_sq_div (fun _ : Fin values.length => (1 : ℚ))
      (g := fun i => (values[i.1] : ℚ))
      fun i _ => Nat.cast_pos.mpr (hpos _ (List.getElem_mem i.2))
    rw [Fin.sum_univ_fun_getElem values fun v : Nat => (v : ℚ), ← cast_total] at h
    simp only [one_pow] at h
    rw [Fin.sum_univ_fun_getElem values fun v : Nat => 1 / (v : ℚ)] at h
    simpa using h
  rw [meanIdeal, harmonicIdeal, mul_div_assoc]
  exact mul_le_mul_of_nonneg_left hmean (Nat.cast_nonneg c)

/-- By their mean the inputs never take off more than rounding can account for. -/
lemma meanSum_le (c : Nat) (hpos : ∀ v ∈ values, 0 < v) :
    meanSum c values ≤ harmonicSum c values + (values.length - 1) := by
  rcases eq_or_ne values [] with rfl | hne
  · simp [meanSum]
  · have hlt : (meanSum c values : ℚ) < (harmonicSum c values + values.length : Nat) := by
      rw [Nat.cast_add]
      calc (meanSum c values : ℚ)
        _ ≤ meanIdeal c values := meanSum_le_ideal c values
        _ ≤ harmonicIdeal c values := meanIdeal_le_harmonicIdeal c hpos
        _ < harmonicSum c values + values.length := harmonicIdeal_lt hpos hne
    have hlt' := Nat.cast_lt.mp hlt
    omega

/-! ### One value changes -/

lemma harmonicSum_append (c : Nat) (before after : List Nat) :
    harmonicSum c (before ++ after) = harmonicSum c before + harmonicSum c after := by
  rw [harmonicSum, List.map_append, total_append]
  rfl

lemma harmonicSum_insert (c v : Nat) (before after : List Nat) :
    harmonicSum c (before ++ v :: after) = c / v + harmonicSum c (before ++ after) := by
  rw [harmonicSum_append, harmonicSum_append, Nat.add_left_comm]
  rfl

lemma harmonicSum_anti (c : Nat) (before after : List Nat) (hv : 0 < v) (hle : v ≤ v') :
    harmonicSum c (before ++ v' :: after) ≤ harmonicSum c (before ++ v :: after) := by
  rw [harmonicSum_insert, harmonicSum_insert]
  exact Nat.add_le_add_right (Nat.div_le_div_left hle hv) _

lemma meanSum_anti (c : Nat) (hv : 0 < v) (hle : v ≤ v') :
    meanSum c (before ++ v' :: after) ≤ meanSum c (before ++ v :: after) := by
  rw [meanSum, meanSum, List.length_append, List.length_append, List.length_cons, List.length_cons]
  simp only [total_append, total_cons]
  exact Nat.div_le_div_left (by omega) (by omega)

lemma exactRelief_anti (c outputs : Nat) (hv : 0 < v) (hle : v ≤ v') :
    exactRelief c (before ++ v' :: after) outputs ≤
      exactRelief c (before ++ v :: after) outputs := by
  have hlength : (before ++ v' :: after).length = (before ++ v :: after).length := by simp
  rw [exactRelief, exactRelief, hlength]
  split
  · exact harmonicSum_anti c _ _ hv hle
  · exact meanSum_anti c hv hle

/-- A further output can only change the weight of the inputs to the one by their mean. -/
lemma exactRelief_succ_le (c outputs : Nat) (hpos : ∀ v ∈ inputs, 0 < v) :
    exactRelief c inputs (outputs + 1) ≤ exactRelief c inputs outputs + (inputs.length - 1) := by
  rw [exactRelief, exactRelief]
  split
  · rename_i hfew
    rw [if_pos (by omega)]
    exact Nat.le_add_right _ _
  · split
    · exact meanSum_le c hpos
    · exact Nat.le_add_right _ _

/-! ### The mass -/

lemma positive_append (before after : List UInt64) :
    positive (before ++ after) = positive before ++ positive after := by
  rw [positive, List.filter_append, List.map_append]
  rfl

lemma positive_insert {v : UInt64} (before after : List UInt64) (hv : 0 < v) :
    positive (before ++ v :: after) = positive before ++ v.toNat :: positive after := by
  have hcons : positive (v :: after) = v.toNat :: positive after := by simp [positive, hv]
  rw [positive_append, hcons]

section

variable {v v' : UInt64}

lemma exactMass_output_anti (c : UInt64) (inputs before after : List UInt64) (hv : 0 < v)
    (hle : v ≤ v') :
    exactMass c inputs (before ++ v' :: after) ≤ exactMass c inputs (before ++ v :: after) := by
  have hmade := harmonicSum_anti c.toNat (positive before) (positive after)
    (UInt64.lt_iff_toNat_lt.mp hv) (UInt64.le_iff_toNat_le.mp hle)
  have hv' : 0 < v' := UInt64.lt_of_lt_of_le hv hle
  simp only [exactMass, positive_insert _ _ hv, positive_insert _ _ hv', List.length_append,
    List.length_cons]
  exact Nat.sub_le_sub_right hmade _

lemma exactMass_input_mono (c : UInt64) (outputs before after : List UInt64) (hv : 0 < v)
    (hle : v ≤ v') :
    exactMass c (before ++ v :: after) outputs ≤ exactMass c (before ++ v' :: after) outputs := by
  have hv' : 0 < v' := UInt64.lt_of_lt_of_le hv hle
  rw [exactMass, exactMass, positive_insert _ _ hv, positive_insert _ _ hv']
  exact Nat.sub_le_sub_left (exactRelief_anti _ _ (UInt64.lt_iff_toNat_lt.mp hv)
    (UInt64.le_iff_toNat_le.mp hle)) _

lemma exactMass_le_insert (c : UInt64) (inputs before after : List UInt64) (hv : 0 < v) :
    exactMass c inputs (before ++ after) ≤
      exactMass c inputs (before ++ v :: after) + ((positive inputs).length - 1) := by
  have hmade : harmonicSum c.toNat (positive (before ++ after)) ≤
      harmonicSum c.toNat (positive (before ++ v :: after)) := by
    rw [positive_insert _ _ hv, harmonicSum_insert, ← positive_append]
    exact Nat.le_add_left _ _
  have hlength : (positive (before ++ v :: after)).length =
      (positive (before ++ after)).length + 1 := by
    rw [positive_insert _ _ hv, positive_append, List.length_append, List.length_append]
    rfl
  have hrelief := exactRelief_succ_le c.toNat (positive (before ++ after)).length
    (pos_of_mem_positive inputs)
  rw [exactMass, exactMass, hlength]
  omega

/-- A larger output never raises the mass and a larger input never lowers it. A further output
lowers it by no more than one for every input but the first, since by their mean the inputs take
off no more than that above what they take off by themselves. -/
theorem ofValues_monotone (c : UInt64) {inputs outputs : List UInt64}
    (hin : inputs.length < 2 ^ 32) (hout : outputs.length < 2 ^ 32) :
    (∀ before v v' after, outputs = before ++ v :: after → 0 < v → v ≤ v' →
      ofValues c inputs (before ++ v' :: after) ≤ ofValues c inputs outputs) ∧
    (∀ before v v' after, inputs = before ++ v :: after → 0 < v → v ≤ v' →
      ofValues c inputs outputs ≤ ofValues c (before ++ v' :: after) outputs) ∧
    (∀ before v after, outputs = before ++ after → 0 < v →
      (ofValues c inputs outputs).toNat ≤
        (ofValues c inputs (before ++ v :: after)).toNat + ((positive inputs).length - 1)) ∧
    meanSum c.toNat (positive inputs) ≤
      harmonicSum c.toNat (positive inputs) + ((positive inputs).length - 1) := by
  have hin' : inputs.length ≤ UInt32.size := Nat.le_of_lt hin
  have hout' : outputs.length ≤ UInt32.size := Nat.le_of_lt hout
  refine ⟨?_, ?_, ?_, meanSum_le _ (pos_of_mem_positive inputs)⟩
  · rintro before v v' after rfl hv hle
    have hlength : (before ++ v' :: after).length ≤ UInt32.size := by simpa using hout'
    rw [UInt64.le_iff_toNat_le, toNat_ofValues hin' hlength, toNat_ofValues hin' hout']
    have hmass := exactMass_output_anti c inputs before after hv hle
    omega
  · rintro before v v' after rfl hv hle
    have hlength : (before ++ v' :: after).length ≤ UInt32.size := by simpa using hin'
    rw [UInt64.le_iff_toNat_le, toNat_ofValues hin' hout', toNat_ofValues hlength hout']
    have hmass := exactMass_input_mono c outputs before after hv hle
    omega
  · rintro before v after rfl hv
    have hlength : (before ++ v :: after).length ≤ UInt32.size := by
      rw [List.length_append] at hout ⊢
      exact hout
    rw [toNat_ofValues hin' hout', toNat_ofValues hin' hlength]
    have hmass := exactMass_le_insert c inputs before after hv
    omega

/-- Three inputs and two outputs. The mass falls by two when a third output has the inputs weighed
by their mean. -/
theorem third_output_monotone :
    let inputs : List UInt64 := [3, 3, 3]
    let outputs : List UInt64 := [1, 1]
    inputs.length < 2 ^ 32 ∧ outputs.length < 2 ^ 32 ∧
      ofValues 5 inputs outputs = 7 ∧ ofValues 5 inputs [1, 1, 100] = 5 ∧
      ofValues 5 inputs [1, 2] ≤ 7 ∧ 7 ≤ ofValues 5 [3, 3, 9] outputs ∧
      7 ≤ (ofValues 5 inputs [1, 1, 100]).toNat + 2 ∧ meanSum 5 [3, 3, 3] ≤ 3 + 2 := by
  intro inputs outputs
  have hin : inputs.length < 2 ^ 32 := by decide
  have hout : outputs.length < 2 ^ 32 := by decide
  have hvalue : ofValues 5 inputs outputs = 7 := by decide +kernel
  have hthird : ofValues 5 inputs [1, 1, 100] = 5 := by decide +kernel
  obtain ⟨houtput, hinput, hfurther, hmean⟩ := ofValues_monotone 5 hin hout
  refine ⟨hin, hout, hvalue, hthird, ?_, ?_, ?_, hmean⟩
  · exact hvalue ▸ houtput [1] 1 2 [] rfl (by decide) (by decide)
  · exact hvalue ▸ hinput [3, 3] 3 9 [] rfl (by decide) (by decide)
  · have hfall := hfurther [1, 1] 100 [] rfl (by decide)
    rw [hvalue] at hfall
    exact hfall

end

end LedgerPost.StorageMass
