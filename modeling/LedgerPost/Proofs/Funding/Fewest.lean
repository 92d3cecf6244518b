import LedgerPost.Proofs.Funding.Prefix
import Mathlib.Data.Nat.Find

/-!
# The fewest outputs

When the fee depends on nothing but the number of outputs and on change, the largest outputs are
the best choice of as many. So the first of their beginnings that covers the amount is a choice of
the fewest outputs, and if none does, no choice at all would.
-/

namespace LedgerPost.Funding

open Coverage

/-! ### The most that a number of outputs is worth -/

section

variable {u v : UnspentOutput} {sorted chosen : List UnspentOutput}

/-- A larger output in front makes a beginning of the same length worth no less. -/
lemma exactSum_take_le_cons (h : (u :: sorted).Pairwise fun u v => v.amount ≤ u.amount) (n : Nat) :
    Amount.exactSum ((sorted.take n).map (·.amount)) ≤
      Amount.exactSum (((u :: sorted).take n).map (·.amount)) := by
  induction sorted generalizing u n with
  | nil => simp
  | cons v sorted ih =>
    cases n with
    | zero => exact Nat.le_refl 0
    | succ n =>
      obtain ⟨hu, hsorted⟩ := List.pairwise_cons.mp h
      have hle : v.amount.toNat ≤ u.amount.toNat :=
        UInt64.le_iff_toNat_le.mp (hu v List.mem_cons_self)
      simpa only [List.take_succ_cons, List.map_cons, Amount.exactSum_cons] using
        Nat.add_le_add hle (ih hsorted n)

/-- Of as many outputs the first ones of a descending list are worth the most. -/
lemma exactSum_le_take (hsorted : sorted.Pairwise fun u v => v.amount ≤ u.amount)
    (h : chosen.Subperm sorted) :
    Amount.exactSum (chosen.map (·.amount)) ≤
      Amount.exactSum ((sorted.take chosen.length).map (·.amount)) := by
  obtain ⟨ordered, hperm, hsublist⟩ := h
  rw [← Amount.exactSum_perm (hperm.map _), ← hperm.length_eq]
  clear hperm
  induction hsublist with
  | slnil => exact Nat.le_refl _
  | cons u _ ih =>
    exact Nat.le_trans (ih (List.pairwise_cons.mp hsorted).2) (exactSum_take_le_cons hsorted _)
  | cons_cons u _ ih =>
    simpa only [List.length_cons, List.take_succ_cons, List.map_cons, Amount.exactSum_cons] using
      Nat.add_le_add_left (ih (List.pairwise_cons.mp hsorted).2) _

end

/-! ### Choices that cover an amount -/

variable {utxos chosen : List UnspentOutput} {total amount dust : UInt64}
  {fee : Nat → Bool → UInt64} {k : Nat}

/-- The estimate that looks at the number of outputs alone, and never fails. -/
def estimateOf (fee : Nat → Bool → UInt64) (chosen : List UnspentOutput) (withChange : Bool) :
    Except Error UInt64 :=
  .ok (fee chosen.length withChange)

/-- A number of outputs with a total covers an amount, without change or with change above dust. -/
def Suffices (amount dust : UInt64) (fee : Nat → Bool → UInt64) (count total : Nat) : Prop :=
  amount.toNat + (fee count false).toNat ≤ total ∨
    amount.toNat < total ∧ dust.toNat + (fee count true).toNat < total - amount.toNat

instance (amount dust : UInt64) (fee : Nat → Bool → UInt64) (count total : Nat) :
    Decidable (Suffices amount dust fee count total) :=
  inferInstanceAs (Decidable (_ ∨ _))

/-- A choice of outputs that covers an amount. -/
structure Covers (utxos : List UnspentOutput) (amount dust : UInt64) (fee : Nat → Bool → UInt64)
    (chosen : List UnspentOutput) : Prop where
  nonempty : chosen ≠ []
  subperm : chosen.Subperm (spendable utxos)
  enough : Suffices amount dust fee chosen.length (Amount.exactSum (chosen.map (·.amount)))

lemma Suffices.mono {count total total' : Nat} (h : Suffices amount dust fee count total)
    (hle : total ≤ total') : Suffices amount dust fee count total' := by
  unfold Suffices at h ⊢
  omega

/-- With known fees a decision never fails, and it covers the amount when the total suffices. -/
lemma exists_decide (hfee : ∀ n, amount.toNat + (fee n false).toNat < UInt64.size) :
    ∃ c, decide total amount dust (estimateOf fee chosen) = .ok c ∧
      (c.isCovered = true ↔ Suffices amount dust fee chosen.length total.toNat) := by
  obtain ⟨required, hadd⟩ := Amount.exists_ofNat_eq_ok (hfee chosen.length)
  have hsum := Amount.ofNat_eq_ok_iff.mp hadd
  refine ⟨_, decide_eq rfl rfl hsum, ?_⟩
  rw [Suffices]
  split
  · rename_i hchange
    rw [changes_iff] at hchange
    simp only [isCovered, true_iff]
    omega
  · rename_i hchange
    rw [changes_iff] at hchange
    split
    · rename_i hle
      rw [UInt64.le_iff_toNat_le] at hle
      simp only [isCovered, true_iff]
      omega
    · rename_i hle
      rw [UInt64.le_iff_toNat_le] at hle
      simp only [isCovered, Bool.false_eq_true, false_iff]
      omega

section

variable (hsize : worth utxos < UInt64.size)
  (hfee : ∀ n, amount.toNat + (fee n false).toNat < UInt64.size)

include hsize hfee

/-- The decision about a beginning of the largest outputs never fails. -/
lemma exists_decision (dust : UInt64) (hle : k ≤ (largestFirst utxos).length) :
    ∃ c, decision amount dust (estimateOf fee) ((largestFirst utxos).take k) = .ok c ∧
      (c.isCovered = true ↔ Suffices amount dust fee k
        (Amount.exactSum (((largestFirst utxos).take k).map (·.amount)))) := by
  have hlength : ((largestFirst utxos).take k).length = k := List.length_take_of_le hle
  have hpart : Amount.exactSum (((largestFirst utxos).take k).map (·.amount)) ≤ worth utxos := by
    rw [← exactSum_largestFirst]
    conv_rhs => rw [← List.take_append_drop k (largestFirst utxos), List.map_append,
      Amount.exactSum_append]
    exact Nat.le_add_right _ _
  obtain ⟨total, hadd⟩ := Amount.exists_ofNat_eq_ok (Nat.lt_of_le_of_lt hpart hsize)
  have htotal := Amount.ofNat_eq_ok_iff.mp hadd
  rw [decision_eq htotal, ← htotal]
  conv in Suffices _ _ _ k _ => rw [← hlength]
  exact exists_decide hfee

/-- A beginning of the largest outputs is decisive when it suffices. -/
lemma decisiveAt_iff :
    DecisiveAt amount dust (estimateOf fee) (largestFirst utxos) k ↔
      1 ≤ k ∧ k ≤ (largestFirst utxos).length ∧ Suffices amount dust fee k
        (Amount.exactSum (((largestFirst utxos).take k).map (·.amount))) := by
  refine and_congr_right fun _ => and_congr_right fun hle => ?_
  obtain ⟨c, hdecision, hcovered⟩ := exists_decision hsize hfee dust hle
  rw [hdecision, ← hcovered]
  constructor
  · rintro (_ | h)
    exact h
  · exact .covered

/-- A choice that covers the amount can be exchanged for as many of the largest outputs. -/
lemma Covers.decisiveAt (h : Covers utxos amount dust fee chosen) :
    DecisiveAt amount dust (estimateOf fee) (largestFirst utxos) chosen.length := by
  have hsubperm : chosen.Subperm (largestFirst utxos) :=
    h.subperm.trans (largestFirst_perm utxos).symm.subperm
  rw [decisiveAt_iff hsize hfee]
  refine ⟨List.length_pos_iff.mpr h.nonempty, hsubperm.length_le, ?_⟩
  exact h.enough.mono (exactSum_le_take (pairwise_largestFirst utxos) hsubperm)

/-- A beginning of the largest outputs that is decisive covers the amount. -/
lemma covers_take (h : DecisiveAt amount dust (estimateOf fee) (largestFirst utxos) k) :
    Covers utxos amount dust fee ((largestFirst utxos).take k) := by
  rw [decisiveAt_iff hsize hfee] at h
  obtain ⟨hpos, hle, henough⟩ := h
  have hlength : ((largestFirst utxos).take k).length = k := List.length_take_of_le hle
  refine ⟨List.length_pos_iff.mp (by omega), ?_, ?_⟩
  · exact (List.take_sublist _ _).subperm.trans (largestFirst_perm utxos).subperm
  · rw [hlength]
    exact henough

/-- The fewest of the largest outputs that cover the amount are spent, if any do. -/
lemma exists_forPayment
    (hfirst : IsLeast {j | DecisiveAt amount dust (estimateOf fee) (largestFirst utxos) j} k) :
    ∃ f, forPayment utxos amount dust (estimateOf fee) = .ok f ∧
      f.utxos = (largestFirst utxos).take k := by
  obtain ⟨c, hdecision, -⟩ := exists_decision hsize hfee dust hfirst.1.2.1
  obtain ⟨f, hf, hpays⟩ := exists_pays_of_first hsize hfirst hdecision
  exact ⟨f, hf, hpays.utxos⟩

/-- The number of the largest outputs that first cover the amount is the least number of outputs
that do. -/
lemma isLeast_covers
    (hfirst : IsLeast {j | DecisiveAt amount dust (estimateOf fee) (largestFirst utxos) j} k) :
    IsLeast {n | ∃ chosen, Covers utxos amount dust fee chosen ∧ chosen.length = n} k := by
  refine ⟨⟨_, covers_take hsize hfee hfirst.1, ?_⟩, ?_⟩
  · exact List.length_take_of_le hfirst.1.2.1
  · rintro n ⟨chosen, hcovers, rfl⟩
    exact hfirst.2 (hcovers.decisiveAt hsize hfee)

end

/-- An amount is paid exactly when some choice of outputs covers it, and then no choice of fewer
outputs does. -/
theorem forPayment_fewest (hsize : worth utxos < UInt64.size)
    (hfee : ∀ n, amount.toNat + (fee n false).toNat < UInt64.size) :
    ((∃ f, forPayment utxos amount dust (estimateOf fee) = .ok f) ↔
      ∃ chosen, Covers utxos amount dust fee chosen) ∧
    ∀ f, forPayment utxos amount dust (estimateOf fee) = .ok f →
      IsLeast {n | ∃ chosen, Covers utxos amount dust fee chosen ∧ chosen.length = n}
        f.utxos.length := by
  classical
  by_cases hsome : ∃ k, DecisiveAt amount dust (estimateOf fee) (largestFirst utxos) k
  · have hfirst : IsLeast {j | DecisiveAt amount dust (estimateOf fee) (largestFirst utxos) j}
        (Nat.find hsome) := ⟨Nat.find_spec hsome, fun j hj => Nat.find_min' hsome hj⟩
    obtain ⟨f, hf, hutxos⟩ := exists_forPayment hsize hfee hfirst
    have hleast := isLeast_covers hsize hfee hfirst
    obtain ⟨chosen, hcovers, -⟩ := hleast.1
    refine ⟨iff_of_true ⟨f, hf⟩ ⟨chosen, hcovers⟩, ?_⟩
    intro f' hf'
    rw [hf, Except.ok.injEq] at hf'
    rw [← hf', hutxos, List.length_take_of_le hfirst.1.2.1]
    exact hleast
  · rw [not_exists] at hsome
    obtain ⟨required, available, -, herror⟩ := forPayment_of_none hsize hsome
    have hno : ¬ ∃ chosen, Covers utxos amount dust fee chosen := by
      rintro ⟨chosen, hcovers⟩
      exact hsome _ (hcovers.decisiveAt hsize hfee)
    rw [herror]
    constructor
    · exact iff_of_false (by simp) hno
    · intro f hf
      cases hf

/-- A fee for every output up to a hundred of them, and for change. -/
def cappedFee (count : Nat) (withChange : Bool) : UInt64 :=
  .ofNat (600 + 1000 * min count 100 + if withChange then 400 else 0)

/-- Two outputs of a handful pay for what one of them does not. -/
theorem handful_fewest :
    worth handful < UInt64.size ∧
    (∀ n, (8000 : UInt64).toNat + (cappedFee n false).toNat < UInt64.size) ∧
    (∃ f, forPayment handful 8000 10000 (estimateOf cappedFee) = .ok f) ∧
    ∀ f, forPayment handful 8000 10000 (estimateOf cappedFee) = .ok f →
      IsLeast {n | ∃ chosen, Covers handful 8000 10000 cappedFee chosen ∧ chosen.length = n}
        f.utxos.length := by
  have hsize : worth handful < UInt64.size := by decide +kernel
  have hfee : ∀ n, (8000 : UInt64).toNat + (cappedFee n false).toNat < UInt64.size := by
    intro n
    have hcapped : (cappedFee n false).toNat = 600 + 1000 * min n 100 :=
      UInt64.toNat_ofNat_of_lt' (by simp [UInt64.size]; omega)
    rw [hcapped, UInt64.size]
    simp
    omega
  have hcovers : Covers handful 8000 10000 cappedFee [coinOf 2 6000, coinOf 3 5000] := by
    refine ⟨List.cons_ne_nil _ _, List.Sublist.subperm ?_, by decide +kernel⟩
    exact List.sublist_cons_self (coinOf 0 4000) _
  exact ⟨hsize, hfee, (forPayment_fewest hsize hfee).1.mpr ⟨_, hcovers⟩,
    (forPayment_fewest hsize hfee).2⟩

end LedgerPost.Funding
