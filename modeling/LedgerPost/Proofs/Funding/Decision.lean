import LedgerPost.Funding.Decision
import LedgerPost.Proofs.Ledger.Amount

/-!
# The decision about change

How a total is found to cover an amount, one rule for each answer. The rules are about natural
numbers, so they also say that no difference of words is cut off at zero.
-/

namespace LedgerPost.Coverage

/-- The decision about a total, where the estimate is that of the fee with or without change. -/
inductive Decided (total amount dust : UInt64) (estimate : Bool → Except Error UInt64) :
    Coverage → Prop
  | withChange {fee change : UInt64} (hfee : estimate true = .ok fee)
      (hsum : total.toNat = amount.toNat + fee.toNat + change.toNat)
      (hdust : dust.toNat < change.toNat) :
      Decided total amount dust estimate (.withChange total fee change)
  | exact {full bare fee : UInt64} (hfull : estimate true = .ok full)
      (hbare : estimate false = .ok bare)
      (hdust : total.toNat ≤ amount.toNat + full.toNat + dust.toNat)
      (hsum : total.toNat = amount.toNat + fee.toNat) (hfee : bare.toNat ≤ fee.toNat) :
      Decided total amount dust estimate (.exact total fee)
  | short {full bare required : UInt64} (hfull : estimate true = .ok full)
      (hbare : estimate false = .ok bare)
      (hdust : total.toNat ≤ amount.toNat + full.toNat + dust.toNat)
      (hsum : required.toNat = amount.toNat + bare.toNat)
      (hshort : total.toNat < required.toNat) :
      Decided total amount dust estimate (.short total required)

variable {total amount dust : UInt64} {estimate : Bool → Except Error UInt64} {c : Coverage}

/-- The three comparisons of words, of which each guards the next difference, are one comparison
of numbers. -/
lemma changes_iff {fee : UInt64} :
    (amount < total ∧ fee ≤ total - amount ∧ dust < total - amount - fee) ↔
      amount.toNat + fee.toNat + dust.toNat < total.toNat := by
  simp only [UInt64.lt_iff_toNat_lt, UInt64.le_iff_toNat_le]
  by_cases hamount : amount ≤ total
  · rw [UInt64.toNat_sub_of_le _ _ hamount]
    by_cases hfee : fee ≤ total - amount
    · rw [UInt64.toNat_sub_of_le _ _ hfee, UInt64.toNat_sub_of_le _ _ hamount]
      omega
    · rw [UInt64.le_iff_toNat_le, UInt64.toNat_sub_of_le _ _ hamount] at hfee
      rw [UInt64.le_iff_toNat_le] at hamount
      omega
  · rw [UInt64.le_iff_toNat_le] at hamount
    omega

/-- Without a change output, what the total exceeds the amount by is the fee. -/
lemma Decided.of_decideExact {full : UInt64} (hfull : estimate true = .ok full)
    (hdust : total.toNat ≤ amount.toNat + full.toNat + dust.toNat)
    (h : decideExact total amount estimate = .ok c) : Decided total amount dust estimate c := by
  rw [decideExact] at h
  obtain ⟨bare, hbare, h⟩ := bind_eq_ok.mp h
  obtain ⟨required, hrequired, h⟩ := bind_eq_ok.mp h
  rw [ofExcept_eq_self, Amount.add_eq_ok_iff] at hrequired
  split at h
  · rename_i hcovered
    cases h
    rw [UInt64.le_iff_toNat_le] at hcovered
    have hle : amount ≤ total := by rw [UInt64.le_iff_toNat_le]; omega
    have hfee := UInt64.toNat_sub_of_le total amount hle
    exact .exact hfull hbare hdust (by omega) (by omega)
  · rename_i hshort
    cases h
    rw [UInt64.le_iff_toNat_le] at hshort
    exact .short hfull hbare hdust hrequired (by omega)

/-- Every decision follows one of the rules. -/
theorem Decided.of_decide (h : decide total amount dust estimate = .ok c) :
    Decided total amount dust estimate c := by
  rw [decide] at h
  obtain ⟨fee, hfee, h⟩ := bind_eq_ok.mp h
  split at h
  · rename_i hchange
    cases h
    obtain ⟨hamount, hle, hdust⟩ := hchange
    have hsub := UInt64.toNat_sub_of_le _ _ hle
    have hsub' := UInt64.toNat_sub_of_le _ _ (UInt64.le_of_lt hamount)
    rw [UInt64.lt_iff_toNat_lt] at hamount hdust
    rw [UInt64.le_iff_toNat_le] at hle
    exact .withChange hfee (by omega) hdust
  · rename_i hchange
    rw [changes_iff] at hchange
    exact .of_decideExact hfee (by omega) h

/-- A decision fails only on overflow, if the estimate does. -/
lemma decide_eq_error {e : Error}
    (hestimate : ∀ withChange e, estimate withChange = .error e → e = .amountOverflow)
    (h : decide total amount dust estimate = .error e) : e = .amountOverflow := by
  rw [decide] at h
  rcases bind_eq_error.mp h with h | ⟨full, -, h⟩
  · exact hestimate true e h
  · split at h
    · cases h
    · rw [decideExact] at h
      rcases bind_eq_error.mp h with h | ⟨bare, -, h⟩
      · exact hestimate false e h
      · rcases bind_eq_error.mp h with h | ⟨required, -, h⟩
        · rw [ofExcept_eq_self] at h
          exact Amount.ofNat_eq_error h
        · split at h
          · cases h
          · cases h

end LedgerPost.Coverage
