import LedgerPost.Proofs.Transaction.Signing
import LedgerPost.Proofs.Transaction.Verification

/-!
# Reports of signed transactions

Whoever signs and whoever checks put together the same digests, one from the consumed outputs and
one from what is reported of them. So what is signed with a key whose signatures are valid is
found to be valid.
-/

namespace LedgerPost

/-- The signature of a digest with the key is valid for its public key. -/
def SecretKey.Verifies (key : SecretKey) (digest : Block 32) : Prop :=
  Schnorr.verify key.publicKey digest (Schnorr.sign key digest) = true

instance (key : SecretKey) (digest : Block 32) : Decidable (key.Verifies digest) :=
  inferInstanceAs (Decidable (_ = true))

/-- The digests that are signed for the inputs of a transaction. -/
def Transaction.digests (tx : Transaction) (spent : List UnspentOutput) : List (Block 32) :=
  tx.inputs.zipWith (fun i u => tx.digestFor i u.spent) spent

/-- The output can be unlocked with the key. -/
def UnspentOutput.LockedTo (u : UnspentOutput) (key : SecretKey) : Prop :=
  u.scriptPublicKey = .payToPublicKey key.publicKey.bytes

instance (u : UnspentOutput) (key : SecretKey) : Decidable (u.LockedTo key) :=
  inferInstanceAs (Decidable (_ = _))

/-- The input is reported with the amount of the output that it consumes, and an address that
stands for its script. -/
structure ReportedInput.Knows (resolver : Resolver) (input : ReportedInput) (u : UnspentOutput) :
    Prop where
  spentAmount : input.spentAmount = some u.amount
  spenderAddress : ∃ address, input.spenderAddress = some address ∧
    resolver address = .ok u.scriptPublicKey

/-- The report is that of a transaction, with what is known about the outputs that it consumes. -/
structure Report.Reports (resolver : Resolver) (tx : Transaction) (spent : List UnspentOutput)
    (r : Report) : Prop where
  transaction : r.toTransaction = tx
  knows : ∀ p ∈ r.inputs.zip spent, p.1.Knows resolver p.2

/-- The report of a transaction by somebody who knows the outputs that it consumes. -/
def Transaction.report (tx : Transaction) (spent : List UnspentOutput)
    (address : UnspentOutput → String) : Report where
  inputs := tx.inputs.zipWith (fun i u =>
    { previousOutpoint := i.previousOutpoint
      signatureScript := i.signatureScript
      sequence := i.sequence
      sigOpCount := i.sigOpCount
      spenderAddress := some (address u)
      spentAmount := some u.amount }) spent
  outputs := tx.outputs
  version := tx.version
  lockTime := tx.lockTime
  subnetworkId := tx.subnetworkId
  gas := tx.gas
  payload := tx.payload

lemma Transaction.reports_report {tx : Transaction} {spent : List UnspentOutput}
    {address : UnspentOutput → String} {resolver : Resolver}
    (hlength : spent.length = tx.inputs.length)
    (haddress : ∀ u ∈ spent, resolver (address u) = .ok u.scriptPublicKey) :
    (tx.report spent address).Reports resolver tx spent := by
  have hinputs : (tx.report spent address).inputs.map ReportedInput.toInput = tx.inputs := by
    apply List.ext_getElem
    · simp [report, hlength]
    · intro n h₁ h₂
      simp [report, ReportedInput.toInput]
  refine ⟨by rw [Report.toTransaction, hinputs]; rfl, ?_⟩
  rintro ⟨input, u⟩ hp
  obtain ⟨n, hn⟩ := List.mem_iff_getElem?.mp hp
  rw [List.getElem?_zip_eq_some, report, List.getElem?_zipWith_eq_some] at hn
  obtain ⟨⟨i, u', hi, hu', hinput⟩, hu⟩ := hn
  dsimp only at hu hinput ⊢
  rw [hu, Option.some.injEq] at hu'
  subst hu' hinput
  exact ⟨rfl, address u, rfl, haddress u (List.mem_of_getElem? hu)⟩

/-! ### Signer and verifier -/

namespace Report

variable {tx : Transaction} {key : SecretKey} {spent : List UnspentOutput} {resolver : Resolver}
  {r : Report}

lemma payee?_payToPublicKey
    (hparse : PublicKey.ofBytes? key.publicKey.bytes.toList = some key.publicKey) :
    payee? (.payToPublicKey key.publicKey.bytes) = some key.publicKey := by
  rw [payee?, Script.publicKey?_payToPublicKey]
  exact hparse

/-- What the verifier hashes for an input is what the signer hashed. -/
lemma inputDigest_signed (hlength : spent.length = tx.inputs.length) {index : Nat} {i : Input}
    {u : UnspentOutput} (hi : tx.inputs[index]? = some i) (hu : spent[index]? = some u) :
    (tx.signed key spent).inputDigest (tx.signed key spent).sharedDigests index u.spent =
      .ok (tx.digestFor i u.spent) := by
  have hinput : (tx.signed key spent).inputs[index]? = some (tx.sealInput key i u) := by
    rw [Transaction.signed, List.getElem?_zipWith_eq_some]
    exact ⟨i, u, hi, hu, rfl⟩
  rw [Transaction.inputDigest_eq_ok hinput]
  refine congrArg Except.ok ?_
  exact Transaction.digestFor_congr (Transaction.unsigned_signed hlength)
    (Transaction.cleared_sealInput i u)

/-- The signature that the signer made passes the check. -/
lemma checkSignature_signed (hlength : spent.length = tx.inputs.length)
    (hparse : PublicKey.ofBytes? key.publicKey.bytes.toList = some key.publicKey) {index : Nat}
    {i : Input} {u : UnspentOutput} (hi : tx.inputs[index]? = some i)
    (hu : spent[index]? = some u) (hlocked : u.LockedTo key)
    (hverifies : key.Verifies (tx.digestFor i u.spent)) :
    checkSignature (tx.signed key spent) (tx.signed key spent).sharedDigests index
      (Schnorr.sign key (tx.digestFor i u.spent)) u.spent = .verified := by
  rw [UnspentOutput.LockedTo] at hlocked
  rw [SecretKey.Verifies] at hverifies
  have hpayee : payee? u.spent.scriptPublicKey = some key.publicKey := by
    rw [UnspentOutput.spent, hlocked, payee?_payToPublicKey hparse]
  rw [checkSignature, hpayee]
  dsimp only
  rw [inputDigest_signed hlength hi hu]
  dsimp only
  rw [if_pos hverifies]

/-- A reported input is a signed one, with what is known about the output that it consumes. -/
lemma Reports.exists_of_mem (hreports : r.Reports resolver (tx.signed key spent) spent)
    {input : ReportedInput} {index : Nat} (hp : (input, index) ∈ r.inputs.zipIdx) :
    ∃ i u, tx.inputs[index]? = some i ∧ spent[index]? = some u ∧
      tx.sealInput key i u = input.toInput ∧ input.Knows resolver u := by
  have hinput : r.inputs[index]? = some input := List.mem_zipIdx_iff_getElem?.mp hp
  have hsigned : (tx.signed key spent).inputs[index]? = some input.toInput := by
    rw [← hreports.transaction, toTransaction, List.getElem?_map, hinput]
    rfl
  rw [Transaction.signed, List.getElem?_zipWith_eq_some] at hsigned
  obtain ⟨i, u, hi, hu, hseal⟩ := hsigned
  have hzip : (input, u) ∈ r.inputs.zip spent := by
    apply List.mem_of_getElem? (i := index)
    rw [List.getElem?_zip_eq_some]
    exact ⟨hinput, hu⟩
  exact ⟨i, u, hi, hu, hseal, hreports.knows _ hzip⟩

lemma checkInput_eq_verified (hlength : spent.length = tx.inputs.length)
    (hparse : PublicKey.ofBytes? key.publicKey.bytes.toList = some key.publicKey)
    (hlocked : ∀ u ∈ spent, u.LockedTo key) (hverifies : ∀ d ∈ tx.digests spent, key.Verifies d)
    (hreports : r.Reports resolver (tx.signed key spent) spent) {p : ReportedInput × Nat}
    (hp : p ∈ r.inputs.zipIdx) :
    checkInput resolver r.toTransaction r.toTransaction.sharedDigests p.2 p.1 = .ok .verified := by
  obtain ⟨input, index⟩ := p
  obtain ⟨i, u, hi, hu, hseal, hamount, address, haddress, hresolver⟩ := hreports.exists_of_mem hp
  have hscript : input.signatureScript =
      Script.ofSignature (Schnorr.sign key (tx.digestFor i u.spent)) :=
    congrArg Input.signatureScript hseal.symm
  have hdigest : tx.digestFor i u.spent ∈ tx.digests spent := by
    apply List.mem_of_getElem? (i := index)
    rw [Transaction.digests, List.getElem?_zipWith_eq_some]
    exact ⟨i, u, hi, hu, rfl⟩
  have hchecked := checkSignature_signed hlength hparse hi hu
    (hlocked u (List.mem_of_getElem? hu)) (hverifies _ hdigest)
  rw [checkInput, hscript, Script.signature?_ofSignature, haddress, hamount, hreports.transaction]
  dsimp only
  rw [hresolver]
  exact congrArg Except.ok hchecked

/-- The report of a signed transaction is valid. -/
lemma verify_signed (hlength : spent.length = tx.inputs.length) (hne : tx.inputs ≠ [])
    (hparse : PublicKey.ofBytes? key.publicKey.bytes.toList = some key.publicKey)
    (hlocked : ∀ u ∈ spent, u.LockedTo key) (hverifies : ∀ d ∈ tx.digests spent, key.Verifies d)
    (hreports : r.Reports resolver (tx.signed key spent) spent) :
    r.verify resolver = .ok .valid := by
  have hinputs : r.inputs.length = tx.inputs.length := by
    have hmap := congrArg (List.length ∘ Transaction.inputs) hreports.transaction
    simpa [toTransaction, Transaction.signed, hlength] using hmap
  have hempty : r.inputs.isEmpty = false := by
    rw [List.isEmpty_eq_false_iff, ← List.length_pos_iff, hinputs, List.length_pos_iff]
    exact hne
  rw [verify, hempty]
  apply outcomeFrom_eq_valid
  intro p hp
  exact checkInput_eq_verified hlength hparse hlocked hverifies hreports hp

end Report

/-- The digests do not depend on signature scripts. -/
lemma Transaction.digests_unsigned (tx : Transaction) (spent : List UnspentOutput) :
    tx.unsigned.digests spent = tx.digests spent := by
  apply List.ext_getElem
  · simp [digests, unsigned_eq]
  · intro n h₁ h₂
    simp only [digests, unsigned_eq, List.getElem_zipWith, List.getElem_map]
    exact digestFor_congr (by simp [unsigned_eq, Input.cleared]) rfl

/-- A transaction that is signed already has the digests that were signed. -/
lemma Transaction.digests_signed {tx : Transaction} {key : SecretKey} {spent : List UnspentOutput}
    (hlength : spent.length = tx.inputs.length) :
    (tx.signed key spent).digests spent = tx.digests spent := by
  rw [← digests_unsigned, unsigned_signed hlength, digests_unsigned]

end LedgerPost
