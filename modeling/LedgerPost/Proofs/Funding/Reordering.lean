import LedgerPost.Proofs.Funding.Shortfall

/-!
# Reordered outputs

What is chosen depends on the amounts of the outputs that may be spent. In another order other
outputs may be chosen, but only among those of the same amount, and what the choice costs and
leaves is the same.
-/

namespace LedgerPost.Funding

variable {utxos utxos' chosen chosen' rest rest' : List UnspentOutput} {total amount dust : UInt64}
  {estimate : List UnspentOutput → Bool → Except Error UInt64} {coverage : Coverage}

/-- Fundings out of outputs of the same amounts, with the same total, fee and change. -/
structure Alike (f f' : Funding) : Prop where
  amounts : (f.utxos.map (·.amount)).Perm (f'.utxos.map (·.amount))
  total : f.total = f'.total
  fee : f.fee = f'.fee
  change : f.change = f'.change

/-! ### Block rewards -/

@[simp] lemma spendable_spendable (utxos : List UnspentOutput) :
    spendable (spendable utxos) = spendable utxos := by
  simp [spendable]

@[simp] lemma all_spendable (utxos : List UnspentOutput) (minimum : UInt64) :
    all (spendable utxos) minimum = all utxos minimum := by
  rw [all, all, spendable_spendable]

@[simp] lemma largestFirst_spendable (utxos : List UnspentOutput) :
    largestFirst (spendable utxos) = largestFirst utxos := by
  rw [largestFirst, largestFirst, spendable_spendable]

lemma allForAmount_spendable :
    allForAmount (spendable utxos) amount dust estimate =
      allForAmount utxos amount dust estimate := by
  rw [allForAmount, allForAmount, all_spendable]

lemma forPayment_spendable :
    forPayment (spendable utxos) amount dust estimate = forPayment utxos amount dust estimate := by
  rw [forPayment, forPayment, largestFirst_spendable]

/-! ### All outputs -/

lemma sum_perm (h : chosen.Perm chosen') : sum chosen = sum chosen' := by
  rw [sum, sum, Amount.sum, Amount.sum, Amount.exactSum_perm (h.map _)]

lemma all_agree (h : utxos.Perm utxos') (minimum : UInt64) :
    Agree (fun a b => a.1.Perm b.1 ∧ a.2 = b.2) (all utxos minimum) (all utxos' minimum) := by
  have hspendable : (spendable utxos).Perm (spendable utxos') := h.filter _
  have hnil : spendable utxos = [] ↔ spendable utxos' = [] := by
    rw [← List.length_eq_zero_iff, hspendable.length_eq, List.length_eq_zero_iff]
  rw [all, all]
  dsimp only
  rw [sum_perm hspendable]
  refine .bind_same _ fun total _ => ?_
  by_cases hrefused : total < minimum ∨ spendable utxos = []
  · rw [if_pos hrefused, if_pos (hrefused.imp_right hnil.mp)]
    exact .error _
  · rw [if_neg hrefused, if_neg fun h => hrefused (h.imp_right hnil.mpr)]
    exact .ok ⟨hspendable, rfl⟩

lemma settle_agree (h : (chosen.map (·.amount)).Perm (chosen'.map (·.amount))) (available : UInt64)
    (coverage : Coverage) : Agree Alike (settle chosen available coverage : Except Error Funding)
      (settle chosen' available coverage) := by
  cases coverage with
  | short total required => exact .error _
  | withChange total fee change => exact .ok ⟨h, rfl, rfl, rfl⟩
  | exact total fee => exact .ok ⟨h, rfl, rfl, rfl⟩
  | exhausted total required => exact .error _

theorem allForAmount_agree (htariff : Tariff estimate) (h : utxos.Perm utxos') :
    Agree Alike (allForAmount utxos amount dust estimate)
      (allForAmount utxos' amount dust estimate) := by
  rw [allForAmount, allForAmount, ofExcept_eq_self, ofExcept_eq_self]
  refine (all_agree h 1).bind ?_
  rintro ⟨chosen, total⟩ ⟨chosen', total'⟩ - - ⟨hperm, rfl⟩
  dsimp only
  rw [htariff.congr chosen chosen' hperm.length_eq]
  exact .bind_same _ fun coverage _ => settle_agree (hperm.map _) _ coverage

/-! ### The largest outputs -/

/-- Sorted amounts are the same in whatever order the outputs were. -/
lemma map_amount_largestFirst (h : utxos.Perm utxos') :
    (largestFirst utxos).map (·.amount) = (largestFirst utxos').map (·.amount) := by
  have hsorted : ∀ utxos, ((largestFirst utxos).map (·.amount)).Pairwise fun a b => b ≤ a := by
    intro utxos
    rw [List.pairwise_map]
    exact pairwise_largestFirst utxos
  refine List.Perm.eq_of_pairwise ?_ (hsorted utxos) (hsorted utxos') ?_
  · intro a b _ _ hba hab
    exact UInt64.le_antisymm hab hba
  · exact ((largestFirst_perm utxos).trans ((h.filter _).trans
      (largestFirst_perm utxos').symm)).map _

/-- A choice grows alike out of outputs with the same amounts. -/
lemma grow_agree (htariff : Tariff estimate)
    (hchosen : chosen.map (·.amount) = chosen'.map (·.amount))
    (hrest : rest.map (·.amount) = rest'.map (·.amount)) :
    Agree (fun a b => a.1.map (·.amount) = b.1.map (·.amount) ∧ a.2 = b.2)
      (grow amount dust estimate chosen total coverage rest)
      (grow amount dust estimate chosen' total coverage rest') := by
  induction rest generalizing rest' chosen chosen' total coverage with
  | nil =>
    obtain rfl := List.map_eq_nil_iff.mp hrest.symm
    exact .ok ⟨hchosen, rfl⟩
  | cons u rest ih =>
    obtain ⟨v, rest', rfl, hamount, hrest⟩ := List.map_eq_cons_iff.mp hrest.symm
    have hnext : (chosen ++ [u]).map (·.amount) = (chosen' ++ [v]).map (·.amount) := by
      simp [hchosen, hamount]
    have hestimate : estimate (chosen ++ [u]) = estimate (chosen' ++ [v]) :=
      htariff.congr _ _ (by simpa using congrArg List.length hnext)
    -- Both add the same amount at the same price, so both stop here or neither does.
    rw [grow, grow, hamount]
    dsimp only
    rw [hestimate]
    refine .bind_same _ fun sum _ => .bind_same _ fun decided _ => ?_
    split
    · exact .ok ⟨hnext, rfl⟩
    · exact ih hnext hrest.symm

theorem forPayment_agree (htariff : Tariff estimate) (h : utxos.Perm utxos') :
    Agree Alike (forPayment utxos amount dust estimate)
      (forPayment utxos' amount dust estimate) := by
  have hamounts := map_amount_largestFirst h
  rw [forPayment, forPayment]
  dsimp only
  rw [sum, sum, hamounts]
  refine .bind_same _ fun available _ => (grow_agree htariff rfl hamounts).bind ?_
  rintro ⟨chosen, coverage⟩ ⟨chosen', coverage'⟩ - - ⟨hchosen, rfl⟩
  exact settle_agree (List.Perm.of_eq hchosen) _ coverage

end LedgerPost.Funding
