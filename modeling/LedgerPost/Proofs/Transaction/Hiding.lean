import LedgerPost.Proofs.Transaction.Tampering

/-!
# Hidden information

The verdict on an input of a report does not depend on the signatures, addresses and amounts that
are reported for the other inputs. So whoever holds back what is known about some inputs can turn
verdicts into skips, but can neither convict another input nor clear one.
-/

namespace LedgerPost

/-- The input is reported with its address or its amount held back, or with a script that is not
that of a signature, and else as it was. -/
structure ReportedInput.Withholds (input' input : ReportedInput) : Prop where
  signatureScript : input'.signatureScript = input.signatureScript ∨
    Script.signature? input'.signatureScript = none
  spenderAddress : input'.spenderAddress = input.spenderAddress ∨ input'.spenderAddress = none
  spentAmount : input'.spentAmount = input.spentAmount ∨ input'.spentAmount = none

namespace Report

/-! ### Outcomes of the loop -/

section

variable {check : Nat → ReportedInput → Except Error Verdict} {skipped : Option (Nat × SkipReason)}
  {inputs : List ReportedInput} {input : ReportedInput} {n k : Nat}

lemma not_passes_iff :
    ¬ Passes check (input, n) ↔
      (∃ e, check n input = .error e) ∨ check n input = .ok .mismatch := by
  simp only [Passes]
  cases check n input with
  | error e => simp
  | ok verdict => simp

lemma forall_getElem?_cons {p : ReportedInput → Nat → Prop} :
    (∀ j i, (input :: inputs)[j]? = some i → p i (n + j)) ↔
      p input n ∧ ∀ j i, inputs[j]? = some i → p i (n + 1 + j) := by
  constructor
  · intro h
    refine ⟨h 0 input rfl, fun j i hi => ?_⟩
    rw [Nat.add_right_comm]
    exact h (j + 1) i hi
  · rintro ⟨hinput, hrest⟩ (_ | j) i hi
    · cases hi
      exact hinput
    · rw [← Nat.add_assoc, Nat.add_right_comm]
      exact hrest j i hi

/-- Counted from a number, the input with a position has a property, and all before it have
another one. -/
def FirstAt (p q : ReportedInput → Nat → Prop) (inputs : List ReportedInput) (n k : Nat) : Prop :=
  ∃ index i, k = n + index ∧ inputs[index]? = some i ∧ p i k ∧
    ∀ j < index, ∀ i, inputs[j]? = some i → q i (n + j)

lemma not_firstAt_nil {p q : ReportedInput → Nat → Prop} : ¬ FirstAt p q [] n k := by
  rintro ⟨index, i, -, hi, -⟩
  cases hi

/-- The first input has the property, or it has the other one and the rest decides. -/
lemma firstAt_cons {p q : ReportedInput → Nat → Prop} :
    FirstAt p q (input :: inputs) n k ↔
      k = n ∧ p input n ∨ q input n ∧ FirstAt p q inputs (n + 1) k := by
  constructor
  · rintro ⟨_ | index, i, rfl, hi, hp, hbefore⟩
    · cases hi
      exact .inl ⟨rfl, hp⟩
    · refine .inr ⟨hbefore 0 (Nat.succ_pos index) input rfl, index, i,
        (Nat.add_right_comm n 1 index).symm, hi, hp, fun j hj i hi => ?_⟩
      rw [Nat.add_right_comm]
      exact hbefore (j + 1) (Nat.succ_lt_succ hj) i hi
  · rintro (⟨rfl, hp⟩ | ⟨hq, index, i, rfl, hi, hp, hbefore⟩)
    · exact ⟨0, input, rfl, rfl, hp, fun j hj => absurd hj (Nat.not_lt_zero j)⟩
    · refine ⟨index + 1, i, Nat.add_right_comm n 1 index, hi, hp, ?_⟩
      rintro (_ | j) hj i hi
      · cases hi
        exact hq
      · rw [← Nat.add_assoc, Nat.add_right_comm]
        exact hbefore j (Nat.lt_of_succ_lt_succ hj) i hi

lemma firstAt_zero_iff {p q : ReportedInput → Nat → Prop} :
    FirstAt p q inputs 0 k ↔
      ∃ i, inputs[k]? = some i ∧ p i k ∧ ∀ j < k, ∀ i, inputs[j]? = some i → q i j := by
  simp only [FirstAt, Nat.zero_add]
  constructor
  · rintro ⟨_, i, rfl, h⟩
    exact ⟨i, h⟩
  · rintro ⟨i, h⟩
    exact ⟨k, i, rfl, h⟩

/-- A report is kept exactly when every input passes. -/
lemma exists_isAcceptable_outcomeFrom_iff :
    (∃ outcome, outcomeFrom check skipped (inputs.zipIdx n) = .ok outcome ∧
        outcome.isAcceptable = true) ↔
      ∀ j i, inputs[j]? = some i → Passes check (i, n + j) := by
  induction inputs generalizing n skipped with
  | nil => cases skipped <;> simp [outcomeFrom, Outcome.isAcceptable]
  | cons input inputs ih =>
    rw [List.zipIdx_cons, forall_getElem?_cons (p := fun i k => Passes check (i, k))]
    by_cases hpasses : Passes check (input, n)
    · obtain ⟨skipped', hrest⟩ := hpasses.exists_outcomeFrom_cons skipped (inputs.zipIdx (n + 1))
      rw [hrest, ih, and_iff_right hpasses]
    · refine iff_of_false ?_ fun h => hpasses h.1
      rintro ⟨outcome, houtcome, hacceptable⟩
      rw [outcomeFrom] at houtcome
      rcases not_passes_iff.mp hpasses with ⟨e, hcheck⟩ | hcheck
      · rw [hcheck] at houtcome
        cases houtcome
      · rw [hcheck] at houtcome
        cases houtcome
        cases hacceptable

/-- A report is invalid at an input exactly when that one is a mismatch and all before it pass. -/
lemma outcomeFrom_eq_invalid_iff :
    outcomeFrom check skipped (inputs.zipIdx n) = .ok (.invalid k) ↔
      FirstAt (fun i k => check k i = .ok .mismatch) (fun i k => Passes check (i, k))
        inputs n k := by
  induction inputs generalizing n skipped with
  | nil => cases skipped <;> simp [outcomeFrom, not_firstAt_nil]
  | cons input inputs ih =>
    rw [List.zipIdx_cons, firstAt_cons]
    by_cases hpasses : Passes check (input, n)
    · obtain ⟨skipped', hrest⟩ := hpasses.exists_outcomeFrom_cons skipped (inputs.zipIdx (n + 1))
      have hmismatch : ¬ check n input = .ok .mismatch := fun h =>
        absurd hpasses (not_passes_iff.mpr (.inr h))
      rw [hrest, ih, and_iff_right hpasses, or_iff_right fun h => hmismatch h.2]
    · -- nothing stands before the first input, so the report is invalid there or nowhere
      rw [outcomeFrom, or_iff_left fun h => hpasses h.1]
      rcases not_passes_iff.mp hpasses with ⟨e, hcheck⟩ | hcheck
      · simp [hcheck]
      · simp [hcheck, eq_comm]

end

/-! ### Outcomes of a report -/

variable {resolver : Resolver} {r r' : Report} {index : Nat} {input input' : ReportedInput}

lemma isAcceptable_iff :
    r.isAcceptable resolver = .ok true ↔
      ∀ j i, r.inputs[j]? = some i → Passes (r.verdict resolver) (i, j) := by
  rw [isAcceptable, map_eq_ok]
  by_cases hne : r.inputs = []
  · simp [verify, hne, Outcome.isAcceptable]
  · rw [verify_eq_outcomeFrom hne, exists_isAcceptable_outcomeFrom_iff]
    simp only [Nat.zero_add]

lemma verify_eq_invalid_iff :
    r.verify resolver = .ok (.invalid index) ↔
      ∃ i, r.inputs[index]? = some i ∧ r.verdict resolver index i = .ok .mismatch ∧
        ∀ j < index, ∀ i, r.inputs[j]? = some i → Passes (r.verdict resolver) (i, j) := by
  by_cases hne : r.inputs = []
  · simp [verify, hne]
  · rw [verify_eq_outcomeFrom hne, outcomeFrom_eq_invalid_iff, firstAt_zero_iff]

/-! ### Verdicts apart from each other -/

/-- What is signed does not hold what is reported about the inputs one by one. -/
lemma SameContents.unsigned_eq (h : r'.SameContents r) :
    r'.toTransaction.unsigned = r.toTransaction.unsigned := by
  rw [Transaction.unsigned_eq, Transaction.unsigned_eq, Transaction.mk.injEq]
  refine ⟨h.version, ?_, h.outputs, h.lockTime, h.subnetworkId, h.gas, h.payload⟩
  have hlength : r'.inputs.length = r.inputs.length := by
    simpa using congrArg List.length h.previousOutpoints
  apply List.ext_getElem
  · simp [toTransaction, hlength]
  · intro n h₁ h₂
    have houtpoint := congrArg (·[n]?) h.previousOutpoints
    have hsequence := congrArg (·[n]?) h.sequences
    have hcount := congrArg (·[n]?) h.sigOpCounts
    simp only [toTransaction, List.length_map] at h₁ h₂
    simp only [List.getElem?_map, List.getElem?_eq_getElem h₁, List.getElem?_eq_getElem h₂,
      Option.map_some, Option.some.injEq] at houtpoint hsequence hcount
    simp only [toTransaction, List.getElem_map, ReportedInput.toInput, Input.cleared, houtpoint,
      hsequence, hcount]

/-- The digest of an input is the same in both reports. -/
lemma SameContents.inputDigest_eq (h : r'.SameContents r) (hinput : r.inputs[index]? = some input)
    (hinput' : r'.inputs[index]? = some input') (spent : SpentOutput) :
    r'.toTransaction.inputDigest r'.toTransaction.sharedDigests index spent =
      r.toTransaction.inputDigest r.toTransaction.sharedDigests index spent := by
  have hfound : r.toTransaction.inputs[index]? = some input.toInput := by
    rw [toTransaction, List.getElem?_map, hinput, Option.map_some]
  have hfound' : r'.toTransaction.inputs[index]? = some input'.toInput := by
    rw [toTransaction, List.getElem?_map, hinput', Option.map_some]
  have hcleared : input'.toInput.cleared = input.toInput.cleared := by
    have hinputs := congrArg (·.inputs[index]?) h.unsigned_eq
    simpa only [Transaction.unsigned_eq, List.getElem?_map, hfound, hfound', Option.map_some,
      Option.some.injEq] using hinputs
  rw [Transaction.inputDigest_eq_ok hfound, Transaction.inputDigest_eq_ok hfound',
    Transaction.digestFor_congr h.unsigned_eq hcleared]

/-- The verdict on an input depends on what is reported for this input and on the contents. -/
lemma SameContents.verdict_eq (h : r'.SameContents r) (hinput : r.inputs[index]? = some input)
    (hinput' : r'.inputs[index]? = some input')
    (hscript : input'.signatureScript = input.signatureScript)
    (haddress : input'.spenderAddress = input.spenderAddress)
    (hamount : input'.spentAmount = input.spentAmount) :
    r'.verdict resolver index input' = r.verdict resolver index input := by
  simp only [verdict, checkInput, checkSignature, hscript, haddress, hamount,
    h.inputDigest_eq hinput hinput']

/-- An input without a signature, an address or an amount is skipped. -/
lemma exists_verdict_eq_skipped (h : Script.signature? input.signatureScript = none ∨
    input.spenderAddress = none ∨ input.spentAmount = none) :
    ∃ reason, r.verdict resolver index input = .ok (.skipped reason) := by
  rw [verdict, checkInput]
  split
  · exact ⟨.unknownScript, rfl⟩
  · exact ⟨.noAddress, rfl⟩
  · exact ⟨.noAmount, rfl⟩
  · rename_i hscript haddress hamount
    simp [hscript, haddress, hamount] at h

/-- An input of which something is held back has its old verdict, or it is skipped. -/
lemma SameContents.verdict_of_withholds (h : r'.SameContents r)
    (hinput : r.inputs[index]? = some input) (hinput' : r'.inputs[index]? = some input')
    (hwithholds : input'.Withholds input) :
    r'.verdict resolver index input' = r.verdict resolver index input ∨
      ∃ reason, r'.verdict resolver index input' = .ok (.skipped reason) := by
  by_cases hnone : Script.signature? input'.signatureScript = none ∨
      input'.spenderAddress = none ∨ input'.spentAmount = none
  · exact .inr (exists_verdict_eq_skipped hnone)
  · rw [not_or, not_or] at hnone
    obtain ⟨hscript, haddress, hamount⟩ := hnone
    left
    apply h.verdict_eq hinput hinput'
    · exact hwithholds.signatureScript.resolve_right hscript
    · exact hwithholds.spenderAddress.resolve_right haddress
    · exact hwithholds.spentAmount.resolve_right hamount

/-- An input that passes still does when something is held back. -/
lemma SameContents.passes_of_withholds (h : r'.SameContents r)
    (hwithholds : ∀ p ∈ r'.inputs.zip r.inputs, p.1.Withholds p.2)
    (hinput' : r'.inputs[index]? = some input')
    (hpasses : ∀ i, r.inputs[index]? = some i → Passes (r.verdict resolver) (i, index)) :
    Passes (r'.verdict resolver) (input', index) := by
  have hlength : r'.inputs.length = r.inputs.length := by
    simpa using congrArg List.length h.previousOutpoints
  obtain ⟨input, hinput⟩ : ∃ input, r.inputs[index]? = some input := by
    have hlt := (List.getElem?_eq_some_iff.mp hinput').1
    rw [hlength] at hlt
    exact ⟨_, List.getElem?_eq_getElem hlt⟩
  have hpair : (input', input) ∈ r'.inputs.zip r.inputs := by
    apply List.mem_of_getElem? (i := index)
    rw [List.getElem?_zip_eq_some]
    exact ⟨hinput', hinput⟩
  have hcases : r'.verdict resolver index input' = r.verdict resolver index input ∨
      ∃ reason, r'.verdict resolver index input' = .ok (.skipped reason) :=
    h.verdict_of_withholds hinput hinput' (hwithholds _ hpair)
  rcases hcases with hsame | ⟨reason, hskipped⟩
  · obtain ⟨verdict, hverdict, hne⟩ := hpasses input hinput
    exact ⟨verdict, hsame.trans hverdict, hne⟩
  · exact ⟨.skipped reason, hskipped, by simp⟩

/-- Inputs are judged one by one: what is reported about one of them has no part in the verdict on
another. So a report that is kept still is when something is held back, and one that is refused
still is, for the same input, as long as nothing is held back about that input. -/
theorem verdicts_independent (resolver : Resolver) (h : r'.SameContents r) :
    (∀ index input input', r.inputs[index]? = some input → r'.inputs[index]? = some input' →
        input'.signatureScript = input.signatureScript →
        input'.spenderAddress = input.spenderAddress → input'.spentAmount = input.spentAmount →
        r'.verdict resolver index input' = r.verdict resolver index input) ∧
      ((∀ p ∈ r'.inputs.zip r.inputs, p.1.Withholds p.2) →
        (r.isAcceptable resolver = .ok true → r'.isAcceptable resolver = .ok true) ∧
        ∀ index, r.verify resolver = .ok (.invalid index) →
          r'.inputs[index]? = r.inputs[index]? → r'.verify resolver = .ok (.invalid index)) := by
  constructor
  · intro index input input' hinput hinput' hscript haddress hamount
    exact h.verdict_eq hinput hinput' hscript haddress hamount
  · intro hwithholds
    constructor
    · intro hacceptable
      rw [isAcceptable_iff] at hacceptable ⊢
      intro j i hi
      exact h.passes_of_withholds hwithholds hi (hacceptable j)
    · intro index hinvalid huntouched
      rw [verify_eq_invalid_iff] at hinvalid ⊢
      obtain ⟨input, hinput, hmismatch, hbefore⟩ := hinvalid
      have hinput' : r'.inputs[index]? = some input := by rw [huntouched, hinput]
      refine ⟨input, hinput', ?_, ?_⟩
      · rw [h.verdict_eq hinput hinput' rfl rfl rfl]
        exact hmismatch
      · intro j hj i hi
        exact h.passes_of_withholds hwithholds hi (hbefore j hj)

/-! ### Reports of which something is held back -/

/-- The report of a coin without the address of its spender. -/
def anonymousCoin : Report :=
  { coin with inputs := coin.inputs.map fun i => { i with spenderAddress := none } }

/-- A report with an address that nobody has, and a signature that is none behind it. -/
def strayCoins : Report :=
  { coin with inputs := coin.inputs.flatMap fun i => [
      { i with spenderAddress := some "kaspa:nobody" },
      { i with signatureScript := Script.ofSignature ⟨List.replicate 64 0xff, by simp⟩ }] }

/-- The report without the signature, the address and the amount of the first input. -/
def bareCoins : Report :=
  { strayCoins with inputs := strayCoins.inputs.zipIdx.map fun (i, index) =>
      if index = 0 then
        { i with signatureScript := [], spenderAddress := none, spentAmount := none }
      else i }

set_option maxRecDepth 100000 in
lemma verify_strayCoins : strayCoins.verify Network.mainnet.resolver = .ok (.invalid 1) := by
  decide +kernel

set_option maxRecDepth 100000 in
lemma verify_coin : coin.verify Network.mainnet.resolver = .ok .valid := by
  apply verify_eq_valid (by decide)
  simp only [verdict, sharedDigests_coin]
  decide +kernel

theorem coins_verdicts_independent :
    (anonymousCoin.SameContents coin ∧
      (∀ p ∈ anonymousCoin.inputs.zip coin.inputs, p.1.Withholds p.2) ∧
      coin.isAcceptable Network.mainnet.resolver = .ok true ∧
      anonymousCoin.isAcceptable Network.mainnet.resolver = .ok true) ∧
    bareCoins.SameContents strayCoins ∧
      (∃ input, strayCoins.inputs[1]? = some input ∧ bareCoins.inputs[1]? = some input ∧
        bareCoins.verdict Network.mainnet.resolver 1 input =
          strayCoins.verdict Network.mainnet.resolver 1 input) ∧
      (∀ p ∈ bareCoins.inputs.zip strayCoins.inputs, p.1.Withholds p.2) ∧
      strayCoins.verify Network.mainnet.resolver = .ok (.invalid 1) ∧
      bareCoins.verify Network.mainnet.resolver = .ok (.invalid 1) := by
  have hanonymous : anonymousCoin.SameContents coin := ⟨rfl, rfl, rfl, rfl, rfl, rfl, rfl, rfl, rfl⟩
  have hbare : bareCoins.SameContents strayCoins := ⟨rfl, rfl, rfl, rfl, rfl, rfl, rfl, rfl, rfl⟩
  have hwithholds : ∀ p ∈ anonymousCoin.inputs.zip coin.inputs, p.1.Withholds p.2 := by
    intro p hp
    cases List.mem_singleton.mp hp
    exact ⟨.inl rfl, .inr rfl, .inl rfl⟩
  have hwithholdsAll : ∀ p ∈ bareCoins.inputs.zip strayCoins.inputs, p.1.Withholds p.2 := by
    intro p hp
    rcases List.mem_pair.mp hp with rfl | rfl
    · exact ⟨.inr rfl, .inr rfl, .inr rfl⟩
    · exact ⟨.inl rfl, .inl rfl, .inl rfl⟩
  have hacceptable : coin.isAcceptable Network.mainnet.resolver = .ok true := by
    rw [isAcceptable, verify_coin]
    rfl
  have hkept := (verdicts_independent Network.mainnet.resolver hanonymous).2 hwithholds
  obtain ⟨hsame, hrefused⟩ := verdicts_independent Network.mainnet.resolver hbare
  exact ⟨⟨hanonymous, hwithholds, hacceptable, hkept.1 hacceptable⟩, hbare,
    ⟨_, rfl, rfl, hsame 1 _ _ rfl rfl rfl rfl rfl⟩, hwithholdsAll, verify_strayCoins,
    (hrefused hwithholdsAll).2 1 verify_strayCoins rfl⟩

end Report

end LedgerPost
