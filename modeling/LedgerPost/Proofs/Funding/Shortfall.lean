import LedgerPost.Proofs.Funding.Choice
import LedgerPost.Proofs.Funding.Feasibility

/-!
# Shortfalls

When the outputs that may be spent are not enough, the error names a sum that would be, and it does
so for every choice of as many outputs: what they cost depends on how many they are.
-/

namespace LedgerPost

namespace Coverage

variable {total amount dust required : UInt64} {estimate : Bool → Except Error UInt64}

/-- What an amount costs without change, which is no more than what it costs with change. -/
def Priced (amount : UInt64) (estimate : Bool → Except Error UInt64) (required : UInt64) : Prop :=
  ∃ full bare, estimate true = .ok full ∧ estimate false = .ok bare ∧ bare ≤ full ∧
    required.toNat = amount.toNat + bare.toNat

/-- A total that falls short has a price. -/
lemma Decided.priced (h : Decided total amount dust estimate (.short total required))
    (hle : ∀ full bare, estimate true = .ok full → estimate false = .ok bare → bare ≤ full) :
    Priced amount estimate required ∧ total < required := by
  cases h with
  | short hfull hbare hdust hsum hshort =>
    exact ⟨⟨_, _, hfull, hbare, hle _ _ hfull hbare, hsum⟩, UInt64.lt_iff_toNat_lt.mpr hshort⟩

/-- The decision when both fees are known. -/
lemma decide_eq {full bare : UInt64} (hfull : estimate true = .ok full)
    (hbare : estimate false = .ok bare) (hsum : required.toNat = amount.toNat + bare.toNat) :
    decide total amount dust estimate = .ok
      (if amount < total ∧ full ≤ total - amount ∧ dust < total - amount - full then
        .withChange total full (total - amount - full)
      else if required ≤ total then .exact total (total - amount) else .short total required) := by
  have hrequired : Amount.add amount bare = .ok required := Amount.add_eq_ok_iff.mpr hsum
  simp only [decide, decideExact, hfull, hbare, hrequired, ofExcept_eq_self, bind, Except.bind,
    pure, Except.pure]
  split
  · rfl
  · split
    · rfl
    · rfl

/-- Less than the price falls short. -/
lemma Priced.decide_eq_short (h : Priced amount estimate required) (hshort : total < required) :
    decide total amount dust estimate = .ok (.short total required) := by
  obtain ⟨full, bare, hfull, hbare, hle, hsum⟩ := h
  have hchange : ¬ (amount < total ∧ full ≤ total - amount ∧ dust < total - amount - full) := by
    rw [changes_iff]
    rw [UInt64.lt_iff_toNat_lt] at hshort
    rw [UInt64.le_iff_toNat_le] at hle
    omega
  rw [decide_eq hfull hbare hsum, if_neg hchange, if_neg (UInt64.not_le.mpr hshort)]

/-- The price covers the amount. -/
lemma Priced.exists_decide (h : Priced amount estimate required) (hle : required ≤ total) :
    ∃ c, decide total amount dust estimate = .ok c ∧ c.isCovered = true := by
  obtain ⟨full, bare, hfull, hbare, -, hsum⟩ := h
  rw [exists_isCovered_iff]
  rw [UInt64.le_iff_toNat_le, hsum] at hle
  exact ⟨full, hfull, .inr ⟨bare, hbare, hle⟩⟩

end Coverage

namespace Funding

open Coverage

variable {utxos chosen chosen' rest : List UnspentOutput}
  {total amount dust required available : UInt64}
  {estimate : List UnspentOutput → Bool → Except Error UInt64} {coverage coverage' : Coverage}

/-- What the outputs are worth that may be spent. -/
def worth (utxos : List UnspentOutput) : Nat :=
  Amount.exactSum ((spendable utxos).map (·.amount))

/-- An estimate that looks at the number of outputs alone. It fails only on overflow, and is no
less with change than without. -/
structure Tariff (estimate : List UnspentOutput → Bool → Except Error UInt64) : Prop where
  congr : ∀ chosen chosen', chosen.length = chosen'.length → estimate chosen = estimate chosen'
  overflow : ∀ chosen withChange e, estimate chosen withChange = .error e → e = .amountOverflow
  le : ∀ chosen full bare, estimate chosen true = .ok full → estimate chosen false = .ok bare →
    bare ≤ full

/-- A shortfall of a way to spend outputs. What is available is the worth of the outputs and less
than what is required, but as many outputs that are worth as much would do. -/
structure Shortfall {α : Type} (spend : List UnspentOutput → Except Error α)
    (utxos : List UnspentOutput) (required available : UInt64) : Prop where
  available_eq : available.toNat = worth utxos
  lt : available < required
  enough : ∀ utxos', (spendable utxos').length = (spendable utxos).length →
    required.toNat ≤ worth utxos' → worth utxos' < UInt64.size → ∃ a, spend utxos' = .ok a

/-- A shortfall of which nothing less than what is required would do. -/
structure StrictShortfall {α : Type} (spend : List UnspentOutput → Except Error α)
    (utxos : List UnspentOutput) (required available : UInt64) : Prop
    extends Shortfall spend utxos required available where
  needed : ∀ utxos' available', (spendable utxos').length = (spendable utxos).length →
    available'.toNat = worth utxos' → 0 < available' → available' < required →
      spend utxos' = .error (.insufficientFunds required available')

section

variable {α β : Type} {spend : List UnspentOutput → Except Error α}

lemma Shortfall.map (h : Shortfall spend utxos required available) (g : α → β) :
    Shortfall (fun utxos => spend utxos >>= fun a => pure (g a)) utxos required available where
  available_eq := h.available_eq
  lt := h.lt
  enough utxos' hlength hle hsize := by
    obtain ⟨a, ha⟩ := h.enough utxos' hlength hle hsize
    rw [ha]
    exact ⟨g a, rfl⟩

lemma StrictShortfall.map (h : StrictShortfall spend utxos required available) (g : α → β) :
    StrictShortfall (fun utxos => spend utxos >>= fun a => pure (g a)) utxos required
      available where
  toShortfall := h.toShortfall.map g
  needed utxos' available' hlength havailable' hpos hlt := by
    rw [h.needed utxos' available' hlength havailable' hpos hlt]
    rfl

end

/-- Outputs are worth something if one of them is. -/
lemma worth_pos (h : ∃ u ∈ utxos, u.isCoinbase = false ∧ 0 < u.amount) : 0 < worth utxos := by
  obtain ⟨u, hmem, hcoinbase, hpos⟩ := h
  have hspendable : u ∈ spendable utxos := by
    rw [spendable, List.mem_filter]
    exact ⟨hmem, by simp [hcoinbase]⟩
  have hle : u.amount.toNat ≤ worth utxos :=
    Amount.le_exactSum (List.mem_map_of_mem hspendable)
  rw [UInt64.lt_iff_toNat_lt] at hpos
  exact Nat.lt_of_lt_of_le hpos hle

/-- The worth of outputs that does not overflow is an amount. -/
lemma exists_toNat_eq_worth (h : worth utxos < UInt64.size) :
    ∃ total : UInt64, total.toNat = worth utxos := by
  obtain ⟨total, htotal⟩ := Amount.exists_ofNat_eq_ok h
  exact ⟨total, Amount.ofNat_eq_ok_iff.mp htotal⟩

/-- A shortfall is strict if outputs that are worth something are enough exactly when they are
worth what is required. -/
lemma StrictShortfall.of_forall {α : Type} {spend : List UnspentOutput → Except Error α}
    (havailable : available.toNat = worth utxos) (hlt : available < required)
    (h : ∀ utxos' (total : UInt64), (spendable utxos').length = (spendable utxos).length →
      total.toNat = worth utxos' → 0 < total →
      (required ≤ total → ∃ a, spend utxos' = .ok a) ∧
        (total < required → spend utxos' = .error (.insufficientFunds required total))) :
    StrictShortfall spend utxos required available := by
  refine ⟨⟨havailable, hlt, ?_⟩, ?_⟩
  · intro utxos' hlength hle hsize
    obtain ⟨total, htotal⟩ := exists_toNat_eq_worth hsize
    rw [← htotal, ← UInt64.le_iff_toNat_le] at hle
    have hpos : 0 < total :=
      UInt64.lt_of_lt_of_le (UInt64.lt_of_le_of_lt UInt64.zero_le hlt) hle
    exact (h utxos' total hlength htotal hpos).1 hle
  · intro utxos' available' hlength havailable' hpos hlt'
    exact (h utxos' available' hlength havailable' hpos).2 hlt'

/-! ### Spending all outputs -/

/-- Outputs that are worth something can be spent. -/
lemma all_of_pos (htotal : total.toNat = worth utxos) (hpos : 0 < total) :
    all utxos 1 = .ok (spendable utxos, total) := by
  have hsum : sum (spendable utxos) = .ok total := Amount.sum_eq_ok_iff.mpr htotal
  have hnonempty : spendable utxos ≠ [] := by
    intro hnil
    rw [worth, hnil, List.map_nil, Amount.exactSum_nil] at htotal
    rw [UInt64.lt_iff_toNat_lt, htotal] at hpos
    exact Nat.lt_irrefl 0 hpos
  have hone : ¬ total < 1 := by
    rw [UInt64.lt_iff_toNat_lt] at hpos ⊢
    rw [UInt64.toNat_zero] at hpos
    rw [UInt64.toNat_one]
    omega
  rw [all]
  dsimp only
  rw [hsum]
  change (if _ then _ else _) = _
  rw [if_neg (not_or.mpr ⟨hone, hnonempty⟩)]
  rfl

/-- Outputs that are worth something are refused only for overflow. -/
lemma all_eq_error_of_pos (hpos : 0 < worth utxos) {e : Error} (h : all utxos 1 = .error e) :
    e = .amountOverflow := by
  rcases all_eq_error h with h | ⟨total, -, htotal, hlt | hnil⟩
  · exact h
  · rw [UInt64.lt_iff_toNat_lt, UInt64.toNat_one, htotal] at hlt
    rw [worth] at hpos
    omega
  · rw [worth, hnil] at hpos
    exact absurd hpos (Nat.lt_irrefl 0)

/-- What is covered is settled. -/
lemma exists_settle_of_isCovered (h : coverage.isCovered = true) :
    ∃ f, (settle chosen available coverage : Except Error Funding) = .ok f := by
  cases coverage with
  | withChange total fee change => exact ⟨_, rfl⟩
  | exact total fee => exact ⟨_, rfl⟩
  | short => cases h
  | exhausted => cases h

lemma priced_of_allForAmount (htariff : Tariff estimate) (hpos : 0 < worth utxos)
    (h : allForAmount utxos amount dust estimate = .error (.insufficientFunds required available)) :
    available.toNat = worth utxos ∧ Priced amount (estimate (spendable utxos)) required ∧
      available < required := by
  rcases allForAmount_eq_error htariff.overflow h with h | ⟨required', available', herror, h⟩
  · cases h
  · cases herror
    rcases h with h | ⟨chosen, hall, hdecided⟩
    · cases all_eq_error_of_pos hpos h
    · obtain ⟨rfl, -, htotal⟩ := all_eq_ok hall
      exact ⟨htotal, hdecided.priced (htariff.le _)⟩

/-- Spending all of what is worth something is a matter of the decision about it. -/
lemma allForAmount_eq (htotal : total.toNat = worth utxos) (hpos : 0 < total) :
    allForAmount utxos amount dust estimate =
      decide total amount dust (estimate (spendable utxos)) >>= settle (spendable utxos) total := by
  rw [allForAmount, all_of_pos htotal hpos]
  rfl

theorem StrictShortfall.of_allForAmount (htariff : Tariff estimate) (hpos : 0 < worth utxos)
    (h : allForAmount utxos amount dust estimate = .error (.insufficientFunds required available)) :
    StrictShortfall (allForAmount · amount dust estimate) utxos required available := by
  obtain ⟨havailable, hpriced, hlt⟩ := priced_of_allForAmount htariff hpos h
  refine .of_forall havailable hlt fun utxos' total hlength htotal hpos' => ?_
  rw [htariff.congr _ _ hlength.symm] at hpriced
  rw [allForAmount_eq htotal hpos']
  constructor
  · intro hle
    obtain ⟨coverage, hdecide, hcovered⟩ := hpriced.exists_decide hle
    rw [hdecide]
    exact exists_settle_of_isCovered hcovered
  · intro hlt'
    rw [hpriced.decide_eq_short hlt']
    rfl

/-! ### Spending the largest outputs -/

lemma length_largestFirst (utxos : List UnspentOutput) :
    (largestFirst utxos).length = (spendable utxos).length :=
  (largestFirst_perm utxos).length_eq

lemma exactSum_largestFirst (utxos : List UnspentOutput) :
    Amount.exactSum ((largestFirst utxos).map (·.amount)) = worth utxos :=
  Amount.exactSum_perm ((largestFirst_perm utxos).map _)

lemma largestFirst_ne_nil (hpos : 0 < worth utxos) : largestFirst utxos ≠ [] := by
  intro hnil
  rw [← exactSum_largestFirst, hnil] at hpos
  exact absurd hpos (Nat.lt_irrefl 0)

/-- Each number of outputs above the first bound and up to the second one has a price. -/
def Prices (amount : UInt64) (estimate : List UnspentOutput → Bool → Except Error UInt64)
    (low high : Nat) : Prop :=
  ∀ chosen, low < chosen.length → chosen.length ≤ high →
    ∃ required, Priced amount (estimate chosen) required

/-- A choice that grew by all that was left and is still not covered was never covered on the
way. -/
lemma priced_of_grow (htariff : Tariff estimate)
    (htotal : total.toNat = Amount.exactSum (chosen.map (·.amount)))
    (h : grow amount dust estimate chosen total coverage rest = .ok (chosen', coverage'))
    (hcovered : coverage'.isCovered = false) :
    Prices amount estimate chosen.length (chosen ++ rest).length ∧
      (rest ≠ [] → ∃ total' : UInt64,
        total'.toNat = Amount.exactSum ((chosen ++ rest).map (·.amount)) ∧
        Decided total' amount dust (estimate (chosen ++ rest)) coverage') := by
  -- The choice so far is never covered, so each step leaves the price of one more output behind.
  induction rest generalizing chosen total coverage with
  | nil =>
    refine ⟨?_, fun hne => absurd rfl hne⟩
    intro chosen'' hlow hhigh
    rw [List.append_nil] at hhigh
    omega
  | cons u rest ih =>
    rw [grow] at h
    obtain ⟨sum, hsum, h⟩ := bind_eq_ok.mp h
    obtain ⟨decided, hdecide, h⟩ := bind_eq_ok.mp h
    rw [ofExcept_eq_self, Amount.add_eq_ok_iff] at hsum
    have hdecided := Decided.of_decide hdecide
    have htotal' : sum.toNat = Amount.exactSum ((chosen ++ [u]).map (·.amount)) := by
      simp [hsum, htotal]
    have hassoc : chosen ++ u :: rest = chosen ++ [u] ++ rest := by simp
    have hlength : (chosen ++ [u]).length = chosen.length + 1 := List.length_append
    split at h
    · rename_i hdone
      cases h
      rw [hdone] at hcovered
      cases hcovered
    · rename_i hdone
      obtain ⟨hprices, hlast⟩ := ih htotal' h
      rw [hassoc]
      constructor
      · intro chosen'' hlow hhigh
        by_cases hnext : chosen''.length = (chosen ++ [u]).length
        · rw [htariff.congr _ _ hnext]
          cases hdecided with
          | withChange => exact absurd rfl hdone
          | exact => exact absurd rfl hdone
          | short hfull hbare hdust hsum hshort =>
            exact ⟨_, _, _, hfull, hbare, htariff.le _ _ _ hfull hbare, hsum⟩
        · exact hprices chosen'' (by omega) hhigh
      · intro _
        by_cases hnil : rest = []
        · subst hnil
          cases h
          rw [List.append_nil]
          exact ⟨sum, htotal', hdecided⟩
        · exact hlast hnil

/-- With prices on the way, a choice grows until it is covered, if all that is left covers it. -/
lemma exists_grow (htotal : total.toNat = Amount.exactSum (chosen.map (·.amount)))
    (hsize : Amount.exactSum ((chosen ++ rest).map (·.amount)) < UInt64.size)
    (hprices : Prices amount estimate chosen.length (chosen ++ rest).length) (hne : rest ≠ [])
    (hpriced : Priced amount (estimate (chosen ++ rest)) required)
    (hle : required.toNat ≤ Amount.exactSum ((chosen ++ rest).map (·.amount))) :
    ∃ chosen' coverage', grow amount dust estimate chosen total coverage rest =
      .ok (chosen', coverage') ∧ coverage'.isCovered = true := by
  induction rest generalizing chosen total coverage with
  | nil => exact absurd rfl hne
  | cons u rest ih =>
    have hassoc : chosen ++ u :: rest = chosen ++ [u] ++ rest := by simp
    have hlength : (chosen ++ [u]).length = chosen.length + 1 := List.length_append
    have hpart : total.toNat + u.amount.toNat =
        Amount.exactSum ((chosen ++ [u]).map (·.amount)) := by
      simp [htotal]
    rw [hassoc] at hsize hprices hpriced hle
    have hsplit : Amount.exactSum ((chosen ++ [u] ++ rest).map (·.amount)) =
        total.toNat + u.amount.toNat + Amount.exactSum (rest.map (·.amount)) := by
      rw [List.map_append, Amount.exactSum_append, hpart]
    obtain ⟨sum, hadd⟩ := Amount.exists_ofNat_eq_ok (n := total.toNat + u.amount.toNat) (by omega)
    have hsum := Amount.add_eq_ok_iff.mp hadd
    rw [grow_cons hsum]
    -- Only the price of all outputs is known to be covered, so the last step is apart.
    by_cases hnil : rest = []
    · subst hnil
      rw [List.append_nil] at hpriced hle
      have hcovers : required ≤ sum := by
        rw [UInt64.le_iff_toNat_le, hsum, hpart]
        exact hle
      obtain ⟨next, hdecide, hcovered⟩ := hpriced.exists_decide hcovers
      rw [hdecide]
      refine ⟨chosen ++ [u], next, ?_, hcovered⟩
      exact if_pos hcovered
    · obtain ⟨price, hprice⟩ := hprices (chosen ++ [u]) (by omega) (by simp)
      by_cases hcovers : price ≤ sum
      · obtain ⟨next, hdecide, hcovered⟩ := hprice.exists_decide hcovers
        rw [hdecide]
        refine ⟨chosen ++ [u], next, ?_, hcovered⟩
        exact if_pos hcovered
      · rw [hprice.decide_eq_short (UInt64.not_le.mp hcovers)]
        change ∃ chosen' coverage', grow amount dust estimate _ _ _ _ = _ ∧ _
        refine ih (hsum.trans hpart) hsize ?_ hnil hpriced hle
        intro chosen'' hlow hhigh
        exact hprices chosen'' (by omega) hhigh

lemma priced_of_forPayment (htariff : Tariff estimate) (hpos : 0 < worth utxos)
    (h : forPayment utxos amount dust estimate = .error (.insufficientFunds required available)) :
    available.toNat = worth utxos ∧ Prices amount estimate 0 (largestFirst utxos).length ∧
      Priced amount (estimate (largestFirst utxos)) required ∧ available < required := by
  rcases forPayment_eq_error htariff.overflow h with h |
    ⟨required', available', herror, hsum, chosen, coverage, hgrow, hsettle⟩
  · cases h
  · cases herror
    rw [sum, Amount.sum_eq_ok_iff, exactSum_largestFirst] at hsum
    have hcovered : coverage.isCovered = false := by
      obtain ⟨_, _, -, hcoverage⟩ := settle_eq_error hsettle
      rcases hcoverage with rfl | rfl
      · rfl
      · rfl
    obtain ⟨hprices, hlast⟩ := priced_of_grow htariff rfl hgrow hcovered
    obtain ⟨total, htotal, hdecided⟩ := hlast (largestFirst_ne_nil hpos)
    rw [List.nil_append, exactSum_largestFirst, ← hsum, UInt64.toNat_inj] at htotal
    obtain ⟨required', herror, rfl⟩ := settle_short hdecided hsettle
    cases herror
    subst htotal
    exact ⟨hsum, hprices, hdecided.priced (htariff.le _)⟩

theorem Shortfall.of_forPayment (htariff : Tariff estimate) (hpos : 0 < worth utxos)
    (h : forPayment utxos amount dust estimate = .error (.insufficientFunds required available)) :
    Shortfall (forPayment · amount dust estimate) utxos required available := by
  obtain ⟨havailable, hprices, hpriced, hlt⟩ := priced_of_forPayment htariff hpos h
  refine ⟨havailable, hlt, ?_⟩
  intro utxos' hlength hle hsize
  have hlength' : (largestFirst utxos).length = (largestFirst utxos').length := by
    rw [length_largestFirst, length_largestFirst, hlength]
  have hpos' : 0 < worth utxos' := by
    rw [UInt64.lt_iff_toNat_lt] at hlt
    omega
  obtain ⟨total, htotal⟩ := exists_toNat_eq_worth hsize
  have hsum : sum (largestFirst utxos') = .ok total := by
    rw [sum, Amount.sum_eq_ok_iff, exactSum_largestFirst, htotal]
  rw [hlength'] at hprices
  rw [htariff.congr _ _ hlength'] at hpriced
  rw [← exactSum_largestFirst] at hsize hle
  obtain ⟨chosen, coverage, hgrow, hcovered⟩ : ∃ chosen coverage,
      grow amount dust estimate [] 0 (.short 0 amount) (largestFirst utxos') =
        .ok (chosen, coverage) ∧ coverage.isCovered = true :=
    exists_grow rfl hsize hprices (largestFirst_ne_nil hpos') hpriced hle
  rw [forPayment, ofExcept_eq_self, hsum]
  change ∃ f, (grow amount dust estimate [] 0 (.short 0 amount) (largestFirst utxos') >>= _) = _
  rw [hgrow]
  exact exists_settle_of_isCovered hcovered

end Funding

end LedgerPost
