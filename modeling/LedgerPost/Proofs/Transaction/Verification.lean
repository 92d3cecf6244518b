import LedgerPost.Transaction.Report
import LedgerPost.Proofs.Ledger.Address

/-!
# Checked reports

A report is valid when each of its inputs is verified. Its check comes to an end for every report
but those with an input whose address is fatal, in front of which no signature is wrong.
-/

namespace LedgerPost

/-! ### The inputs one by one -/

namespace Report

/-- An input after which the check goes on. -/
def Passes (check : Nat → ReportedInput → Except Error Verdict) (p : ReportedInput × Nat) : Prop :=
  ∃ verdict, check p.2 p.1 = .ok verdict ∧ verdict ≠ .mismatch

variable {check : Nat → ReportedInput → Except Error Verdict} {skipped : Option (Nat × SkipReason)}
  {inputs : List ReportedInput} {input : ReportedInput} {e : Error} {n : Nat}

/-- An input ends the check with an error, or it passes and leaves the rest to decide. -/
lemma outcomeFrom_cons_eq_error {rest : List (ReportedInput × Nat)}
    (h : outcomeFrom check skipped ((input, n) :: rest) = .error e) :
    check n input = .error e ∨
      Passes check (input, n) ∧ ∃ skipped', outcomeFrom check skipped' rest = .error e := by
  rw [outcomeFrom] at h
  split at h
  · rename_i e' hcheck
    cases h
    exact .inl hcheck
  · rename_i hcheck
    exact .inr ⟨⟨.verified, hcheck, by simp⟩, skipped, h⟩
  · cases h
  · rename_i reason hcheck
    exact .inr ⟨⟨.skipped reason, hcheck, by simp⟩, _, h⟩

lemma Passes.exists_outcomeFrom_cons (h : Passes check (input, n))
    (skipped : Option (Nat × SkipReason)) (rest : List (ReportedInput × Nat)) :
    ∃ skipped', outcomeFrom check skipped ((input, n) :: rest) =
      outcomeFrom check skipped' rest := by
  obtain ⟨verdict, hcheck, hne⟩ := h
  dsimp only at hcheck
  rw [outcomeFrom, hcheck]
  cases verdict with
  | verified => exact ⟨skipped, rfl⟩
  | mismatch => exact absurd rfl hne
  | skipped reason => exact ⟨skipped.or (some (n, reason)), rfl⟩

/-- The check fails at the first input that fails, unless there is a mismatch before it. -/
theorem outcomeFrom_eq_error_iff :
    outcomeFrom check skipped (inputs.zipIdx n) = .error e ↔
      ∃ before input after, inputs = before ++ input :: after ∧
        check (n + before.length) input = .error e ∧ ∀ p ∈ before.zipIdx n, Passes check p := by
  induction inputs generalizing n skipped with
  | nil => cases skipped <;> simp [outcomeFrom]
  | cons input inputs ih =>
    rw [List.zipIdx_cons]
    constructor
    · intro h
      rcases outcomeFrom_cons_eq_error h with hcheck | ⟨hpasses, skipped', h⟩
      · exact ⟨[], input, inputs, rfl, hcheck, by simp⟩
      · obtain ⟨before, input', after, rfl, hcheck, hbefore⟩ := ih.mp h
        refine ⟨input :: before, input', after, rfl, ?_, ?_⟩
        · rw [← hcheck]
          congr 1
          simp only [List.length_cons]
          omega
        · rw [List.zipIdx_cons, List.forall_mem_cons]
          exact ⟨hpasses, hbefore⟩
    · rintro ⟨_ | ⟨first, before⟩, input', after, heq, hcheck, hbefore⟩
      · obtain ⟨rfl, rfl⟩ := List.cons.inj heq
        rw [outcomeFrom, show check n input = .error e from hcheck]
      · rw [List.cons_append, List.cons.injEq] at heq
        obtain ⟨rfl, rfl⟩ := heq
        rw [List.zipIdx_cons, List.forall_mem_cons] at hbefore
        obtain ⟨hpasses, hbefore⟩ := hbefore
        obtain ⟨skipped', hrest⟩ := hpasses.exists_outcomeFrom_cons skipped
          ((before ++ input' :: after).zipIdx (n + 1))
        rw [hrest, ih]
        refine ⟨before, input', after, rfl, ?_, hbefore⟩
        rw [← hcheck]
        congr 1
        simp only [List.length_cons]
        omega

/-- An outcome is valid when every input is verified. -/
lemma outcomeFrom_eq_valid (h : ∀ p ∈ inputs.zipIdx n, check p.2 p.1 = .ok .verified) :
    outcomeFrom check none (inputs.zipIdx n) = .ok .valid := by
  induction inputs generalizing n with
  | nil => rfl
  | cons input inputs ih =>
    rw [List.zipIdx_cons, List.forall_mem_cons] at h
    obtain ⟨hcheck, hrest⟩ := h
    rw [List.zipIdx_cons, outcomeFrom, show check n input = .ok .verified from hcheck]
    exact ih hrest

end Report

/-! ### Addresses of a network -/

/-- An input whose signature would be checked if its address were not unfit. -/
structure ReportedInput.Fatal (input : ReportedInput) (address : String) : Prop where
  signature : (Script.signature? input.signatureScript).isSome = true
  spenderAddress : input.spenderAddress = some address
  spentAmount : input.spentAmount.isSome = true
  unfit : Address.Unfit address

namespace Report

variable {network : Network} {tx : Transaction} {shared : SharedDigests} {index : Nat}
  {input : ReportedInput} {address : String} {e : Error} {r : Report}

/-- The check of an input fails exactly when the input is fatal. -/
lemma checkInput_eq_error_iff :
    checkInput network.resolver tx shared index input = .error e ↔
      ∃ address, input.Fatal address ∧ e = .unfitPayload address := by
  rw [checkInput]
  constructor
  · intro h
    split at h
    · cases h
    · cases h
    · cases h
    · rename_i signature address amount hsignature haddress hamount
      have hanswer := Address.Answer.of_resolver network address
      generalize network.resolver address = answer at h hanswer
      cases hanswer with
      | accepted hfit script => cases h
      | refused hfit fault => cases h
      | fatal hunfit =>
        cases h
        exact ⟨address, ⟨by simp [hsignature], haddress, by simp [hamount], hunfit⟩, rfl⟩
  · rintro ⟨address, ⟨hsignature, haddress, hamount, hunfit⟩, rfl⟩
    obtain ⟨signature, hsignature⟩ := Option.isSome_iff_exists.mp hsignature
    obtain ⟨amount, hamount⟩ := Option.isSome_iff_exists.mp hamount
    rw [hsignature, haddress, hamount]
    have hanswer := Address.Answer.of_resolver network address
    dsimp only
    generalize network.resolver address = answer at hanswer
    cases hanswer with
    | accepted hfit script => exact absurd hunfit hfit
    | refused hfit fault => exact absurd hunfit hfit
    | fatal hunfit => rfl

/-- An input whose address is refused is skipped. -/
lemma checkInput_of_unresolved (haddress : input.spenderAddress = some address)
    (hresolver : network.resolver address = .error e) (hfit : ¬ Address.Unfit address) :
    ∃ reason, checkInput network.resolver tx shared index input = .ok (.skipped reason) := by
  rw [checkInput]
  split
  · exact ⟨_, rfl⟩
  · exact ⟨_, rfl⟩
  · exact ⟨_, rfl⟩
  · rename_i signature address' amount _ haddress' _
    rw [haddress, Option.some.injEq] at haddress'
    subst haddress'
    have hanswer := Address.Answer.of_resolver network address
    rw [hresolver] at hanswer ⊢
    cases hanswer with
    | refused _ fault => exact ⟨_, rfl⟩
    | fatal hunfit => exact absurd hunfit hfit

/-- A report that has a fatal input, in front of which no signature is wrong. -/
def Aborts (network : Network) (r : Report) : Prop :=
  ∃ before input after address, r.inputs = before ++ input :: after ∧ input.Fatal address ∧
    ∀ p ∈ before.zipIdx,
      Passes (checkInput network.resolver r.toTransaction r.toTransaction.sharedDigests) p

theorem verify_eq_error_iff {e : Error} {resolver : Resolver} :
    r.verify resolver = .error e ↔ ∃ before input after, r.inputs = before ++ input :: after ∧
      checkInput resolver r.toTransaction r.toTransaction.sharedDigests before.length input =
        .error e ∧
      ∀ p ∈ before.zipIdx,
        Passes (checkInput resolver r.toTransaction r.toTransaction.sharedDigests) p := by
  rw [verify]
  split
  · rename_i hempty
    simp [List.isEmpty_iff.mp hempty]
  · dsimp only
    rw [outcomeFrom_eq_error_iff]
    simp only [Nat.zero_add]

/-- Addresses and reports are answered, and an input without an output is skipped, but for
addresses that are unfit: the check of a report fails exactly at the first one of them. The payload
of an unfit address is too long, unless it is a key or a hash given as an ECDSA key. -/
theorem verify_fails_open (network : Network) :
    (∀ s, Address.Answer s (Address.parse s)) ∧
      (∀ s, Address.Answer s (network.resolver s)) ∧
      (∀ r : Report, (∃ e, r.verify network.resolver = .error e) ↔ r.Aborts network) ∧
      (∀ tx shared index (input : ReportedInput) address e, input.spenderAddress = some address →
        network.resolver address = .error e → ¬ Address.Unfit address →
        ∃ reason, checkInput network.resolver tx shared index input = .ok (.skipped reason)) ∧
      ∀ s, Address.Unfit s → ∃ addressNetwork version payload,
        Address.parts (Text.lower s).toList = .ok (addressNetwork, version, payload) ∧
          (version.size < payload.length ∨ version = .ecdsaKey ∧ payload.length = 32) := by
  refine ⟨Address.Answer.of_parse, Address.Answer.of_resolver network, ?_, ?_,
    fun s h => h.exists_length⟩
  · intro r
    constructor
    · rintro ⟨e, h⟩
      obtain ⟨before, input, after, hinputs, hcheck, hbefore⟩ := verify_eq_error_iff.mp h
      obtain ⟨address, hfatal, -⟩ := checkInput_eq_error_iff.mp hcheck
      exact ⟨before, input, after, address, hinputs, hfatal, hbefore⟩
    · rintro ⟨before, input, after, address, hinputs, hfatal, hbefore⟩
      refine ⟨.unfitPayload address, verify_eq_error_iff.mpr ?_⟩
      exact ⟨before, input, after, hinputs,
        checkInput_eq_error_iff.mpr ⟨address, hfatal, rfl⟩, hbefore⟩
  · intro tx shared index input address e haddress hresolver hfit
    exact checkInput_of_unresolved haddress hresolver hfit

end Report

/-- An address for a key of 33 bytes. -/
def Address.overlong : String :=
  "kaspa:qq3zyg3zyg3zyg3zyg3zyg3zyg3zyg3zyg3zyg3zyg3zyg3zyg3zygs4tk89ufr"

/-- A report of one input, with a signature and an address for a key of 33 bytes. -/
def Report.overlong : Report where
  inputs := [{
    previousOutpoint := ⟨⟨.zero 32⟩, 0⟩
    signatureScript := Script.placeholder
    sequence := 0
    sigOpCount := 1
    spenderAddress := some Address.overlong
    spentAmount := some 1 }]
  outputs := []
  version := 0
  lockTime := 0
  subnetworkId := .native
  gas := 0
  payload := []

theorem overlong_is_fatal :
    Address.parse Address.overlong = .error (.unfitPayload Address.overlong) ∧
      Network.mainnet.resolver Address.overlong = .error (.unfitPayload Address.overlong) ∧
      Report.overlong.verify Network.mainnet.resolver =
        .error (.unfitPayload Address.overlong) := by
  decide +kernel

end LedgerPost
