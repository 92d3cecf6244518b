import LedgerPost.Funding.Choice
import LedgerPost.Proofs.Funding.Decision
import Mathlib.Data.List.Sublists

/-!
# Chosen outputs

Both ways of choosing outputs settle on a funding that is drawn from the spendable outputs, adds
up, and is decided by the rules on change.
-/

namespace LedgerPost.Funding

/-- The coverage that a funding was settled with. -/
def coverage (f : Funding) : Coverage :=
  if f.hasChange then .withChange f.total f.fee f.change else .exact f.total f.fee

/-- A funding that covers an amount out of the given outputs. -/
structure Settles (utxos : List UnspentOutput) (amount dust : UInt64)
    (estimate : List UnspentOutput → Bool → Except Error UInt64) (f : Funding) : Prop where
  spendable : f.utxos.Subperm (spendable utxos)
  nonempty : f.utxos ≠ []
  total : f.total.toNat = Amount.exactSum (f.utxos.map (·.amount))
  decided : Coverage.Decided f.total amount dust (estimate f.utxos) f.coverage

variable {utxos chosen chosen' rest : List UnspentOutput} {total amount dust minimum : UInt64}
  {estimate : List UnspentOutput → Bool → Except Error UInt64} {f : Funding}
  {coverage coverage' : Coverage}

lemma all_eq_ok (h : all utxos minimum = .ok (chosen, total)) :
    chosen = Funding.spendable utxos ∧ chosen ≠ [] ∧
      total.toNat = Amount.exactSum (chosen.map (·.amount)) := by
  rw [all] at h
  obtain ⟨sum, hsum, h⟩ := bind_eq_ok.mp h
  split at h
  · cases h
  · rename_i hrefused
    cases h
    rw [not_or] at hrefused
    exact ⟨rfl, hrefused.2, Amount.sum_eq_ok_iff.mp hsum⟩

/-- What is settled on is what was decided. -/
lemma settle_eq_ok {available : UInt64}
    (hdecided : Coverage.Decided total amount dust (estimate chosen) coverage)
    (h : (settle chosen available coverage : Except Error Funding) = .ok f) :
    f.utxos = chosen ∧ f.total = total ∧ f.coverage = coverage := by
  cases hdecided with
  | withChange hfee hsum hdust =>
    cases h
    rename_i fee change
    have hchange : 0 < change := by
      rw [UInt64.lt_iff_toNat_lt]
      exact Nat.zero_lt_of_lt hdust
    exact ⟨rfl, rfl, by simp [Funding.coverage, hasChange, hchange]⟩
  | exact hfull hbare hdust hsum hfee =>
    cases h
    exact ⟨rfl, rfl, rfl⟩
  | short hfull hbare hdust hsum hshort => cases h

/-- A funding out of decided outputs. -/
lemma Settles.of_settle {available : UInt64} (hspendable : chosen.Subperm (Funding.spendable utxos))
    (hnonempty : chosen ≠ []) (htotal : total.toNat = Amount.exactSum (chosen.map (·.amount)))
    (hdecided : Coverage.Decided total amount dust (estimate chosen) coverage)
    (h : (settle chosen available coverage : Except Error Funding) = .ok f) :
    Settles utxos amount dust estimate f := by
  obtain ⟨rfl, rfl, rfl⟩ := settle_eq_ok hdecided h
  exact ⟨hspendable, hnonempty, htotal, hdecided⟩

theorem Settles.of_allForAmount (h : allForAmount utxos amount dust estimate = .ok f) :
    Settles utxos amount dust estimate f := by
  rw [allForAmount] at h
  obtain ⟨⟨chosen, total⟩, hall, h⟩ := bind_eq_ok.mp h
  obtain ⟨coverage, hdecide, h⟩ := bind_eq_ok.mp h
  rw [ofExcept_eq_self] at hall
  obtain ⟨rfl, hnonempty, htotal⟩ := all_eq_ok hall
  exact .of_settle (List.Subperm.refl _) hnonempty htotal (.of_decide hdecide) h

/-! ### Growing a choice -/

/-- One step of a choice, when its sum is known to fit. -/
lemma grow_cons {u : UnspentOutput} {sum : UInt64}
    (hsum : sum.toNat = total.toNat + u.amount.toNat) :
    grow amount dust estimate chosen total coverage (u :: rest) =
      Coverage.decide sum amount dust (estimate (chosen ++ [u])) >>= fun next =>
        if next.isCovered then pure (chosen ++ [u], next)
        else grow amount dust estimate (chosen ++ [u]) sum next rest := by
  rw [grow, Amount.add_eq_ok_iff.mpr hsum]
  rfl

/-- A choice either stays as it is or grows by the outputs in front of the rest. In the second
case its coverage was decided about it. -/
lemma grow_eq_ok (htotal : total.toNat = Amount.exactSum (chosen.map (·.amount)))
    (h : grow amount dust estimate chosen total coverage rest = .ok (chosen', coverage')) :
    (chosen' = chosen ∧ coverage' = coverage) ∨
      ∃ total' : UInt64, chosen' ≠ [] ∧ chosen' <+: chosen ++ rest ∧
        total'.toNat = Amount.exactSum (chosen'.map (·.amount)) ∧
        Coverage.Decided total' amount dust (estimate chosen') coverage' := by
  induction rest generalizing chosen total coverage with
  | nil =>
    cases h
    exact .inl ⟨rfl, rfl⟩
  | cons u rest ih =>
    rw [grow] at h
    obtain ⟨sum, hsum, h⟩ := bind_eq_ok.mp h
    obtain ⟨decided, hdecide, h⟩ := bind_eq_ok.mp h
    rw [ofExcept_eq_self, Amount.add_eq_ok_iff] at hsum
    have htotal' : sum.toNat = Amount.exactSum ((chosen ++ [u]).map (·.amount)) := by
      simp [hsum, htotal]
    have hprefix : chosen ++ [u] <+: chosen ++ u :: rest := by
      simp
    right
    split at h
    · cases h
      exact ⟨sum, by simp, hprefix, htotal', .of_decide hdecide⟩
    · rcases ih htotal' h with ⟨rfl, rfl⟩ | ⟨total', hne, hpre, hsum', hdecided⟩
      · exact ⟨sum, by simp, hprefix, htotal', .of_decide hdecide⟩
      · exact ⟨total', hne, by simpa using hpre, hsum', hdecided⟩

/-! ### The largest outputs -/

lemma largestFirst_perm (utxos : List UnspentOutput) :
    (largestFirst utxos).Perm (Funding.spendable utxos) :=
  List.mergeSort_perm _ _

/-- The order in which outputs are sorted relates any two of them and is transitive. -/
lemma amountOrder_trans (u v w : UnspentOutput) (huv : decide (v.amount ≤ u.amount) = true)
    (hvw : decide (w.amount ≤ v.amount) = true) : decide (w.amount ≤ u.amount) = true :=
  decide_eq_true (UInt64.le_trans (of_decide_eq_true hvw) (of_decide_eq_true huv))

lemma amountOrder_total (u v : UnspentOutput) :
    (decide (v.amount ≤ u.amount) || decide (u.amount ≤ v.amount)) = true := by
  simpa using UInt64.le_total v.amount u.amount

lemma pairwise_largestFirst (utxos : List UnspentOutput) :
    (largestFirst utxos).Pairwise fun u v => v.amount ≤ u.amount :=
  (List.pairwise_mergeSort amountOrder_trans amountOrder_total _).imp of_decide_eq_true

/-- Outputs of one amount keep their order. -/
lemma filter_largestFirst (utxos : List UnspentOutput) (amount : UInt64) :
    (largestFirst utxos).filter (·.amount = amount) =
      (Funding.spendable utxos).filter (·.amount = amount) := by
  have hequal : ((Funding.spendable utxos).filter (·.amount = amount)).Pairwise
      fun u v => decide (v.amount ≤ u.amount) = true := by
    refine List.pairwise_of_forall_mem_list fun u hu v hv => ?_
    simp only [List.mem_filter, decide_eq_true_eq] at hu hv
    rw [hu.2, hv.2]
    exact decide_eq_true (UInt64.le_refl amount)
  have hsublist := (List.sublist_mergeSort amountOrder_trans amountOrder_total hequal
    List.filter_sublist).filter (·.amount = amount)
  rw [List.filter_filter] at hsublist
  simp only [Bool.and_self] at hsublist
  exact (hsublist.eq_of_length ((largestFirst_perm utxos).filter _).length_eq.symm).symm

theorem Settles.of_forPayment (h : forPayment utxos amount dust estimate = .ok f) :
    Settles utxos amount dust estimate f := by
  rw [forPayment] at h
  obtain ⟨available, -, h⟩ := bind_eq_ok.mp h
  obtain ⟨⟨chosen, coverage⟩, hgrow, h⟩ := bind_eq_ok.mp h
  rcases grow_eq_ok rfl hgrow with ⟨rfl, rfl⟩ | ⟨total, hne, hprefix, hsum, hdecided⟩
  · cases h
  · have hsub : chosen.Subperm (Funding.spendable utxos) :=
      hprefix.sublist.subperm.trans (largestFirst_perm utxos).subperm
    exact .of_settle hsub hne hsum hdecided h

/-! ### What a funding adds up to -/

/-- A funding with change was decided by the rule for change, any other by the one without. -/
lemma Settles.decided_cases (h : Settles utxos amount dust estimate f) :
    (f.hasChange = true ∧
        Coverage.Decided f.total amount dust (estimate f.utxos)
          (.withChange f.total f.fee f.change)) ∨
      (f.hasChange = false ∧ f.change = 0 ∧
        Coverage.Decided f.total amount dust (estimate f.utxos) (.exact f.total f.fee)) := by
  have hdecided := h.decided
  rw [coverage] at hdecided
  split at hdecided
  · rename_i hchange
    exact .inl ⟨hchange, hdecided⟩
  · rename_i hchange
    have hzero : f.change.toNat = 0 := by
      simpa [hasChange, UInt64.lt_iff_toNat_lt] using hchange
    exact .inr ⟨by simpa using hchange, UInt64.toNat_inj.mp hzero, hdecided⟩

/-- The total pays for the amount, the fee and the change. -/
lemma Settles.total_eq (h : Settles utxos amount dust estimate f) :
    f.total.toNat = amount.toNat + f.fee.toNat + f.change.toNat := by
  rcases h.decided_cases with ⟨-, hdecided⟩ | ⟨-, hzero, hdecided⟩
  · cases hdecided with
    | withChange hfee hsum hdust => exact hsum
  · cases hdecided with
    | exact hfull hbare hdust hsum hfee => simpa [hzero] using hsum

/-- Change is more than dust, and the fee is that of a transaction with change. -/
lemma Settles.of_hasChange (h : Settles utxos amount dust estimate f)
    (hchange : f.hasChange = true) :
    dust < f.change ∧ estimate f.utxos true = .ok f.fee := by
  rcases h.decided_cases with ⟨-, hdecided⟩ | ⟨hnone, -⟩
  · cases hdecided with
    | withChange hfee hsum hdust => exact ⟨UInt64.lt_iff_toNat_lt.mpr hdust, hfee⟩
  · simp [hnone] at hchange

/-- Without change the fee is at least what is needed, and what is given away is less than the
cost of a change output and dust. -/
lemma Settles.of_not_hasChange (h : Settles utxos amount dust estimate f)
    (hchange : f.hasChange = false) :
    ∃ full bare, estimate f.utxos true = .ok full ∧ estimate f.utxos false = .ok bare ∧
      bare.toNat ≤ f.fee.toNat ∧ f.fee.toNat ≤ full.toNat + dust.toNat := by
  rcases h.decided_cases with ⟨hsome, -⟩ | ⟨-, -, hdecided⟩
  · simp [hchange] at hsome
  · cases hdecided with
    | exact hfull hbare hdust hsum hfee => exact ⟨_, _, hfull, hbare, hfee, by omega⟩

/-! ### Why there is no funding -/

lemma all_eq_error {e : Error} (h : all utxos minimum = .error e) :
    e = .amountOverflow ∨ ∃ total : UInt64, e = .insufficientFunds minimum total ∧
      total.toNat = Amount.exactSum ((Funding.spendable utxos).map (·.amount)) ∧
      (total < minimum ∨ Funding.spendable utxos = []) := by
  rw [all] at h
  rcases bind_eq_error.mp h with h | ⟨total, hsum, h⟩
  · exact .inl (Amount.ofNat_eq_error h)
  · split at h
    · rename_i hrefused
      cases h
      exact .inr ⟨total, rfl, Amount.sum_eq_ok_iff.mp hsum, hrefused⟩
    · cases h

lemma settle_eq_error {available : UInt64} {e : Error}
    (h : (settle chosen available coverage : Except Error Funding) = .error e) :
    ∃ total required, e = .insufficientFunds required available ∧
      (coverage = .short total required ∨ coverage = .exhausted total required) := by
  cases coverage with
  | short total required =>
    cases h
    exact ⟨total, required, rfl, .inl rfl⟩
  | withChange => cases h
  | exact => cases h
  | exhausted total required =>
    cases h
    exact ⟨total, required, rfl, .inr rfl⟩

/-- What is decided and not settled falls short. -/
lemma settle_short {available : UInt64} {e : Error}
    (hdecided : Coverage.Decided total amount dust (estimate chosen) coverage)
    (h : (settle chosen' available coverage : Except Error Funding) = .error e) :
    ∃ required, e = .insufficientFunds required available ∧ coverage = .short total required := by
  obtain ⟨total', required, rfl, hcoverage⟩ := settle_eq_error h
  cases hdecided with
  | withChange => simp at hcoverage
  | exact => simp at hcoverage
  | short =>
    rcases hcoverage with heq | heq
    · cases heq
      exact ⟨_, rfl, rfl⟩
    · cases heq

variable (hestimate : ∀ chosen withChange e,
  estimate chosen withChange = .error e → e = .amountOverflow)

include hestimate

/-- An amount is not covered by all outputs if there is nothing to spend, or if they fall short. -/
theorem allForAmount_eq_error {e : Error}
    (h : allForAmount utxos amount dust estimate = .error e) :
    e = .amountOverflow ∨ ∃ required available, e = .insufficientFunds required available ∧
      (all utxos 1 = .error e ∨ ∃ chosen, all utxos 1 = .ok (chosen, available) ∧
        Coverage.Decided available amount dust (estimate chosen) (.short available required)) := by
  rw [allForAmount] at h
  rcases bind_eq_error.mp h with h | ⟨⟨chosen, total⟩, hall, h⟩
  · rw [ofExcept_eq_self] at h
    rcases all_eq_error h with he | ⟨total, he, -⟩
    · exact .inl he
    · exact .inr ⟨1, total, he, .inl h⟩
  · rw [ofExcept_eq_self] at hall
    rcases bind_eq_error.mp h with h | ⟨coverage, hdecide, h⟩
    · exact .inl (Coverage.decide_eq_error (hestimate chosen) h)
    · have hdecided := Coverage.Decided.of_decide hdecide
      obtain ⟨required, he, rfl⟩ := settle_short hdecided h
      exact .inr ⟨required, total, he, .inr ⟨chosen, hall, hdecided⟩⟩

lemma grow_eq_error {e : Error}
    (h : grow amount dust estimate chosen total coverage rest = .error e) :
    e = .amountOverflow := by
  induction rest generalizing chosen total coverage with
  | nil => cases h
  | cons u rest ih =>
    rw [grow] at h
    rcases bind_eq_error.mp h with h | ⟨sum, -, h⟩
    · rw [ofExcept_eq_self] at h
      exact Amount.ofNat_eq_error h
    · rcases bind_eq_error.mp h with h | ⟨decided, -, h⟩
      · exact Coverage.decide_eq_error (hestimate _) h
      · split at h
        · cases h
        · exact ih h

/-- An amount is not covered by the largest outputs if the choice that grew out of them is not. -/
theorem forPayment_eq_error {e : Error}
    (h : forPayment utxos amount dust estimate = .error e) :
    e = .amountOverflow ∨ ∃ required available, e = .insufficientFunds required available ∧
      sum (largestFirst utxos) = .ok available ∧ ∃ chosen coverage,
        grow amount dust estimate [] 0 (.short 0 amount) (largestFirst utxos) =
          .ok (chosen, coverage) ∧
        (settle chosen available coverage : Except Error Funding) = .error e := by
  rw [forPayment] at h
  rcases bind_eq_error.mp h with h | ⟨available, hsum, h⟩
  · rw [ofExcept_eq_self] at h
    exact .inl (Amount.ofNat_eq_error h)
  · rw [ofExcept_eq_self] at hsum
    rcases bind_eq_error.mp h with h | ⟨⟨chosen, coverage⟩, hgrow, h⟩
    · exact .inl (grow_eq_error hestimate h)
    · obtain ⟨-, required, he, -⟩ := settle_eq_error h
      exact .inr ⟨required, available, he, hsum, chosen, coverage, hgrow, h⟩

end LedgerPost.Funding
