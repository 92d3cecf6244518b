import LedgerPost.Proofs.Transaction.Commitment
import LedgerPost.Proofs.Transaction.Verification
import Mathlib.Data.Nat.Find

/-!
# Tampered reports

A valid report whose contents are changed is no longer valid. A change that all signatures cover
is blamed on the first input, and a change of a spent amount on the input that spends it, because
every digest commits to what was changed.
-/

namespace LedgerPost

namespace Report

/-- The lengths of the output scripts and of the payload fit into words. -/
structure Sized (r : Report) : Prop where
  outputs : ∀ o ∈ r.outputs, o.Sized
  payload : r.payload.length < UInt64.size

/-- The report has the signatures and addresses of another one, and still all spent amounts. -/
structure KeepsSignatures (r' r : Report) : Prop where
  signatureScripts : r'.inputs.map (·.signatureScript) = r.inputs.map (·.signatureScript)
  spenderAddresses : r'.inputs.map (·.spenderAddress) = r.inputs.map (·.spenderAddress)
  spentAmounts : ∀ input ∈ r'.inputs, input.spentAmount.isSome = true

/-- The reports agree in all that every signature covers. -/
structure SameContents (r' r : Report) : Prop where
  version : r'.version = r.version
  lockTime : r'.lockTime = r.lockTime
  gas : r'.gas = r.gas
  subnetworkId : r'.subnetworkId = r.subnetworkId
  payload : r'.payload = r.payload
  outputs : r'.outputs = r.outputs
  previousOutpoints : r'.inputs.map (·.previousOutpoint) = r.inputs.map (·.previousOutpoint)
  sequences : r'.inputs.map (·.sequence) = r.inputs.map (·.sequence)
  sigOpCounts : r'.inputs.map (·.sigOpCount) = r.inputs.map (·.sigOpCount)

/-- The spent amount that is reported for the input with a position. -/
def spentAmount? (r : Report) (index : Nat) : Option UInt64 :=
  r.inputs[index]?.bind (·.spentAmount)

/-- The input with a position has a signature to check, with a key and a consumed output. -/
structure Checks (resolver : Resolver) (r : Report) (index : Nat) (input : ReportedInput)
    (signature : Signature) (key : PublicKey) (spent : SpentOutput) : Prop where
  found : r.inputs[index]? = some input
  signature : Script.signature? input.signatureScript = some signature
  script : ∃ address, input.spenderAddress = some address ∧
    resolver address = .ok spent.scriptPublicKey
  amount : input.spentAmount = some spent.amount
  key : payee? spent.scriptPublicKey = some key

/-- The digest of an input that is checked. -/
def digest (r : Report) (input : ReportedInput) (spent : SpentOutput) : Block 32 :=
  r.toTransaction.digestFor input.toInput spent

/-- How a change can escape the check of an input: byte strings that are hashed for it clash, or
its signature is valid for two digests. -/
inductive Escapes (resolver : Resolver) (r r' : Report) (index : Nat) : Prop
  | clash {input input' : ReportedInput} {signature : Signature} {key : PublicKey}
      {spent spent' : SpentOutput}
      (h : r.Checks resolver index input signature key spent)
      (h' : r'.Checks resolver index input' signature key spent')
      (hclash : Transaction.Clash r.toTransaction r'.toTransaction input.toInput input'.toInput
        spent spent')
  | forgery {input input' : ReportedInput} {signature : Signature} {key : PublicKey}
      {spent spent' : SpentOutput}
      (h : r.Checks resolver index input signature key spent)
      (h' : r'.Checks resolver index input' signature key spent')
      (hne : r.digest input spent ≠ r'.digest input' spent')
      (hverify : Schnorr.verify key (r.digest input spent) signature = true)
      (hverify' : Schnorr.verify key (r'.digest input' spent') signature = true)

/-! ### Outcomes -/

variable {check : Nat → ReportedInput → Except Error Verdict} {skipped : Option (Nat × SkipReason)}
  {inputs : List ReportedInput} {n : Nat}

/-- An outcome is valid only when nothing was skipped and every input is verified. -/
lemma verified_of_outcomeFrom_eq_valid
    (h : outcomeFrom check skipped (inputs.zipIdx n) = .ok .valid) :
    skipped = none ∧ ∀ index input, inputs[index]? = some input →
      check (n + index) input = .ok .verified := by
  induction inputs generalizing n skipped with
  | nil =>
    cases skipped with
    | none => simp
    | some p => cases h
  | cons head rest ih =>
    rw [List.zipIdx_cons, outcomeFrom] at h
    split at h
    · cases h
    · rename_i hcheck
      obtain ⟨hskipped, hrest⟩ := ih h
      refine ⟨hskipped, ?_⟩
      intro index input hinput
      cases index with
      | zero =>
        cases hinput
        exact hcheck
      | succ index =>
        rw [List.getElem?_cons_succ] at hinput
        rw [← hrest index input hinput]
        congr 1
        omega
    · cases h
    · obtain ⟨hskipped, -⟩ := ih h
      simp at hskipped

/-- The first mismatch decides. -/
lemma outcomeFrom_eq_invalid {index : Nat} {input : ReportedInput}
    (hinput : inputs[index]? = some input) (hcheck : check (n + index) input = .ok .mismatch)
    (hbefore : ∀ j < index, ∀ input, inputs[j]? = some input →
      check (n + j) input = .ok .verified) :
    outcomeFrom check none (inputs.zipIdx n) = .ok (.invalid (n + index)) := by
  induction inputs generalizing n index with
  | nil => cases hinput
  | cons head rest ih =>
    rw [List.zipIdx_cons, outcomeFrom]
    cases index with
    | zero =>
      have hhead : check n head = .ok .mismatch := by
        cases hinput
        exact hcheck
      rw [hhead]
      rfl
    | succ index =>
      have hhead : check n head = .ok .verified := hbefore 0 (Nat.succ_pos _) head rfl
      rw [List.getElem?_cons_succ] at hinput
      have hshift : ∀ j, n + 1 + j = n + (j + 1) := by
        intro j
        omega
      rw [hhead]
      dsimp only
      rw [ih hinput (by rwa [hshift]) ?_, hshift]
      intro j hj input hinput
      rw [hshift]
      exact hbefore (j + 1) (Nat.succ_lt_succ hj) input hinput

/-! ### Checked inputs -/

variable {resolver : Resolver} {r r' : Report} {index : Nat} {input input' : ReportedInput}
  {signature : Signature} {key : PublicKey} {spent spent' : SpentOutput}

/-- The verdict on the input with a position. -/
def verdict (resolver : Resolver) (r : Report) (index : Nat) (input : ReportedInput) :
    Except Error Verdict :=
  checkInput resolver r.toTransaction r.toTransaction.sharedDigests index input

lemma Checks.toInput (h : r.Checks resolver index input signature key spent) :
    r.toTransaction.inputs[index]? = some input.toInput := by
  rw [toTransaction, List.getElem?_map, h.found]
  rfl

/-- Where there is something to check, the signature decides. -/
lemma Checks.verdict_eq (h : r.Checks resolver index input signature key spent) :
    r.verdict resolver index input =
      .ok (if Schnorr.verify key (r.digest input spent) signature then .verified
        else .mismatch) := by
  obtain ⟨address, haddress, hresolver⟩ := h.script
  rw [verdict, checkInput, h.signature, haddress, h.amount]
  dsimp only
  rw [hresolver]
  dsimp only
  rw [checkSignature, h.key]
  dsimp only
  rw [Transaction.inputDigest_eq_ok h.toInput]
  rfl

/-- An input is verified when there is something to check and the signature is valid. -/
lemma exists_checks_of_verdict_eq (hinput : r.inputs[index]? = some input)
    (h : r.verdict resolver index input = .ok .verified) :
    ∃ signature key spent, r.Checks resolver index input signature key spent ∧
      Schnorr.verify key (r.digest input spent) signature = true := by
  have hverdict := h
  rw [verdict, checkInput] at h
  split at h
  · cases h
  · cases h
  · cases h
  · rename_i signature address amount hsignature haddress hamount
    split at h
    · rename_i script hscript
      rw [Except.ok.injEq, checkSignature] at h
      split at h
      · cases h
      · rename_i key hkey
        have hchecks : r.Checks resolver index input signature key ⟨amount, script⟩ :=
          ⟨hinput, hsignature, ⟨address, haddress, hscript⟩, hamount, hkey⟩
        refine ⟨signature, key, _, hchecks, ?_⟩
        by_contra hverify
        rw [hchecks.verdict_eq, if_neg hverify] at hverdict
        cases hverdict
    · split at h
      · cases h
      · cases h

/-- A script that pays to a key is short. -/
lemma length_of_payee? {script : ScriptPublicKey} (h : payee? script = some key) :
    script.script.length = 34 := by
  obtain ⟨block, hblock, -⟩ := Option.bind_eq_some_iff.mp h
  unfold Script.publicKey? at hblock
  split at hblock
  · rename_i rest hscript
    split at hblock
    · rename_i hdrop
      have hlength := congrArg List.length hdrop
      rw [List.length_drop, List.length_singleton] at hlength
      rw [hscript, List.length_cons]
      omega
    · cases hblock
  · contradiction

/-- An input of the changed report has the same signature to check as before. -/
lemma Checks.exists_checks (h : r.Checks resolver index input signature key spent)
    (hkeeps : r'.KeepsSignatures r) :
    ∃ input' amount, r'.Checks resolver index input' signature key
      ⟨amount, spent.scriptPublicKey⟩ := by
  have hscripts := congrArg (·[index]?) hkeeps.signatureScripts
  have haddresses := congrArg (·[index]?) hkeeps.spenderAddresses
  simp only [List.getElem?_map, h.found, Option.map_some] at hscripts haddresses
  obtain ⟨input', hinput', hscript⟩ := Option.map_eq_some_iff.mp hscripts
  rw [hinput', Option.map_some, Option.some.injEq] at haddresses
  obtain ⟨amount, hamount⟩ :=
    Option.isSome_iff_exists.mp (hkeeps.spentAmounts input' (List.mem_of_getElem? hinput'))
  refine ⟨input', amount, hinput', ?_, ?_, hamount, h.key⟩
  · rw [hscript]
    exact h.signature
  · rw [haddresses]
    exact h.script

/-! ### Changed reports -/

lemma KeepsSignatures.length_eq (h : r'.KeepsSignatures r) :
    r'.inputs.length = r.inputs.length := by
  simpa using congrArg List.length h.signatureScripts

lemma SameContents.of_unsigned_eq (h : r'.toTransaction.unsigned = r.toTransaction.unsigned) :
    r'.SameContents r := by
  rw [Transaction.unsigned_eq, Transaction.unsigned_eq, Transaction.mk.injEq] at h
  obtain ⟨hversion, hinputs, houtputs, hlockTime, hsubnetworkId, hgas, hpayload⟩ := h
  have houtpoints := congrArg (List.map Input.previousOutpoint) hinputs
  have hsequences := congrArg (List.map Input.sequence) hinputs
  have hcounts := congrArg (List.map Input.sigOpCount) hinputs
  simp only [toTransaction, List.map_map] at houtpoints hsequences hcounts
  exact ⟨hversion, hlockTime, hgas, hsubnetworkId, hpayload, houtputs, houtpoints, hsequences,
    hcounts⟩

/-- Reports of the same contents with the same signatures report the same transaction. -/
lemma SameContents.toTransaction_eq (h : r'.SameContents r) (hkeeps : r'.KeepsSignatures r) :
    r'.toTransaction = r.toTransaction := by
  rw [Transaction.mk.injEq]
  refine ⟨h.version, ?_, h.outputs, h.lockTime, h.subnetworkId, h.gas, h.payload⟩
  apply List.ext_getElem
  · simp [toTransaction, hkeeps.length_eq]
  · intro n h₁ h₂
    have houtpoint := congrArg (·[n]?) h.previousOutpoints
    have hscript := congrArg (·[n]?) hkeeps.signatureScripts
    have hsequence := congrArg (·[n]?) h.sequences
    have hcount := congrArg (·[n]?) h.sigOpCounts
    rw [toTransaction, List.length_map] at h₁ h₂
    simp only [List.getElem?_map, List.getElem?_eq_getElem h₁, List.getElem?_eq_getElem h₂,
      Option.map_some, Option.some.injEq] at houtpoint hscript hsequence hcount
    simp only [toTransaction, List.getElem_map, ReportedInput.toInput, houtpoint, hscript,
      hsequence, hcount]

/-- Inputs of the same transaction, with the same address, differ in their spent amounts alone. -/
lemma KeepsSignatures.getElem?_inputs_eq (h : r'.KeepsSignatures r)
    (htx : r'.toTransaction = r.toTransaction)
    (hamount : r'.spentAmount? index = r.spentAmount? index) :
    r'.inputs[index]? = r.inputs[index]? := by
  have hinput := congrArg (·.inputs[index]?) htx
  have haddress := congrArg (·[index]?) h.spenderAddresses
  rw [spentAmount?, spentAmount?] at hamount
  simp only [toTransaction, List.getElem?_map] at hinput haddress
  cases hr : r.inputs[index]? with
  | none =>
    rw [hr, Option.map_none, Option.map_eq_none_iff] at hinput
    exact hinput
  | some input =>
    rw [hr, Option.map_some] at hinput haddress
    obtain ⟨input', hr', hinput⟩ := Option.map_eq_some_iff.mp hinput
    rw [hr', hr, Option.bind_some, Option.bind_some] at hamount
    rw [hr', Option.map_some, Option.some.injEq] at haddress
    rw [ReportedInput.toInput, ReportedInput.toInput, Input.mk.injEq] at hinput
    obtain ⟨houtpoint, hscript, hsequence, hcount⟩ := hinput
    rw [hr', Option.some.injEq, ReportedInput.mk.injEq]
    exact ⟨houtpoint, hscript, hsequence, hcount, haddress, hamount⟩

/-- A report of the same transaction with the same amounts is the same. -/
lemma KeepsSignatures.eq (h : r'.KeepsSignatures r) (htx : r'.toTransaction = r.toTransaction)
    (hamount : ∀ index, r'.spentAmount? index = r.spentAmount? index) : r' = r := by
  have hinputs : r'.inputs = r.inputs := by
    apply List.ext_getElem?
    intro index
    exact h.getElem?_inputs_eq htx (hamount index)
  obtain ⟨inputs, outputs, version, lockTime, subnetworkId, gas, payload⟩ := r
  obtain ⟨inputs', outputs', version', lockTime', subnetworkId', gas', payload'⟩ := r'
  rw [toTransaction, toTransaction, Transaction.mk.injEq] at htx
  obtain ⟨hversion, -, houtputs, hlockTime, hsubnetworkId, hgas, hpayload⟩ := htx
  rw [mk.injEq]
  exact ⟨hinputs, houtputs, hversion, hlockTime, hsubnetworkId, hgas, hpayload⟩

/-- A verified input is a mismatch once what its digest covers is changed. -/
lemma mismatch_or_escapes (hr : r.Sized) (hr' : r'.Sized) (hkeeps : r'.KeepsSignatures r)
    (hinput : r.inputs[index]? = some input)
    (hverified : r.verdict resolver index input = .ok .verified)
    (hchange : ¬ r'.SameContents r ∨ r'.spentAmount? index ≠ r.spentAmount? index) :
    (∃ input', r'.inputs[index]? = some input' ∧
      r'.verdict resolver index input' = .ok .mismatch) ∨ Escapes resolver r r' index := by
  obtain ⟨signature, key, spent, hchecks, hverify⟩ := exists_checks_of_verdict_eq hinput hverified
  obtain ⟨input', amount, hchecks'⟩ := hchecks.exists_checks hkeeps
  by_cases hclash : Transaction.Clash r.toTransaction r'.toTransaction input.toInput input'.toInput
      spent ⟨amount, spent.scriptPublicKey⟩
  · exact .inr (.clash hchecks hchecks' hclash)
  have hlength := length_of_payee? hchecks.key
  have hscript : spent.scriptPublicKey.script.length < UInt64.size := by
    rw [hlength]
    decide
  have hdigest : r.digest input spent ≠ r'.digest input' ⟨amount, spent.scriptPublicKey⟩ := by
    intro heq
    have hsame := Transaction.sameSigned_of_digestFor_eq hclash
      ⟨hr.outputs, hr.payload, hscript⟩ ⟨hr'.outputs, hr'.payload, hscript⟩ heq
    rcases hchange with hchange | hchange
    · exact hchange (.of_unsigned_eq hsame.unsigned.symm)
    · apply hchange
      rw [spentAmount?, spentAmount?, hchecks.found, hchecks'.found, Option.bind_some,
        Option.bind_some, hchecks.amount, hchecks'.amount, hsame.amount]
  by_cases hverify' : Schnorr.verify key (r'.digest input' ⟨amount, spent.scriptPublicKey⟩)
      signature = true
  · exact .inr (.forgery hchecks hchecks' hdigest hverify hverify')
  · refine .inl ⟨input', hchecks'.found, ?_⟩
    rw [hchecks'.verdict_eq, if_neg hverify']

/-! ### Verification -/

lemma verify_eq_outcomeFrom (hne : r.inputs ≠ []) :
    r.verify resolver = outcomeFrom (r.verdict resolver) none r.inputs.zipIdx := by
  rw [verify, if_neg (by simpa using hne)]
  rfl

lemma verified_of_verify_eq_valid (h : r.verify resolver = .ok .valid) :
    r.inputs ≠ [] ∧ ∀ index input, r.inputs[index]? = some input →
      r.verdict resolver index input = .ok .verified := by
  have hne : r.inputs ≠ [] := by
    intro hempty
    rw [verify, if_pos (by simpa using hempty)] at h
    cases h
  refine ⟨hne, ?_⟩
  intro index input hinput
  rw [verify_eq_outcomeFrom hne] at h
  have hverified := (verified_of_outcomeFrom_eq_valid h).2 index input hinput
  rwa [Nat.zero_add] at hverified

lemma verify_eq_valid (hne : r.inputs ≠ [])
    (hverified : ∀ p ∈ r.inputs.zipIdx, r.verdict resolver p.2 p.1 = .ok .verified) :
    r.verify resolver = .ok .valid := by
  rw [verify_eq_outcomeFrom hne]
  exact outcomeFrom_eq_valid hverified

lemma verify_eq_invalid (hinput : r.inputs[index]? = some input)
    (hmismatch : r.verdict resolver index input = .ok .mismatch)
    (hbefore : ∀ j < index, ∀ input, r.inputs[j]? = some input →
      r.verdict resolver j input = .ok .verified) :
    r.verify resolver = .ok (.invalid index) := by
  have hne : r.inputs ≠ [] := by
    rintro hempty
    rw [hempty] at hinput
    cases hinput
  have hinvalid : outcomeFrom (r.verdict resolver) none (r.inputs.zipIdx 0) =
      .ok (.invalid (0 + index)) :=
    outcomeFrom_eq_invalid hinput (by rwa [Nat.zero_add])
      (by simpa only [Nat.zero_add] using hbefore)
  rw [verify_eq_outcomeFrom hne, hinvalid, Nat.zero_add]

/-- A valid report that is changed is found to be invalid, unless the change escapes. When its
contents are changed the first input is to blame, and when only amounts are changed the first
input with another amount. -/
theorem verify_detects_change (hr : r.Sized) (hr' : r'.Sized)
    (hvalid : r.verify resolver = .ok .valid) (hkeeps : r'.KeepsSignatures r) :
    (¬ r'.SameContents r →
        r'.verify resolver = .ok (.invalid 0) ∨ Escapes resolver r r' 0) ∧
      (r'.SameContents r → r' ≠ r →
        ∃ index, r'.spentAmount? index ≠ r.spentAmount? index ∧
          (∀ j < index, r'.spentAmount? j = r.spentAmount? j) ∧
          (r'.verify resolver = .ok (.invalid index) ∨ Escapes resolver r r' index)) := by
  obtain ⟨hne, hverified⟩ := verified_of_verify_eq_valid hvalid
  constructor
  · intro hchange
    obtain ⟨input, rest, hinputs⟩ := List.exists_cons_of_ne_nil hne
    have hinput : r.inputs[0]? = some input := by rw [hinputs, List.getElem?_cons_zero]
    rcases mismatch_or_escapes hr hr' hkeeps hinput (hverified 0 input hinput) (.inl hchange) with
      ⟨input', hinput', hmismatch⟩ | hescapes
    · left
      exact verify_eq_invalid hinput' hmismatch fun j hj => absurd hj (Nat.not_lt_zero j)
    · exact .inr hescapes
  · intro hsame hdiffers
    have htx := hsame.toTransaction_eq hkeeps
    have hchange : ∃ index, r'.spentAmount? index ≠ r.spentAmount? index := by
      by_contra hamounts
      rw [not_exists] at hamounts
      exact hdiffers (hkeeps.eq htx fun index => not_not.mp (hamounts index))
    obtain ⟨index, hchange, hfirst⟩ :
        ∃ index, r'.spentAmount? index ≠ r.spentAmount? index ∧
          ∀ j < index, r'.spentAmount? j = r.spentAmount? j :=
      ⟨Nat.find hchange, Nat.find_spec hchange, fun j hj => not_not.mp (Nat.find_min hchange hj)⟩
    refine ⟨index, hchange, hfirst, ?_⟩
    have hbefore : ∀ j < index, ∀ input, r'.inputs[j]? = some input →
        r'.verdict resolver j input = .ok .verified := by
      intro j hj input hinput
      rw [hkeeps.getElem?_inputs_eq htx (hfirst j hj)] at hinput
      rw [verdict, htx]
      exact hverified j input hinput
    have hsome : ∃ input, r.inputs[index]? = some input := by
      rw [← Option.isSome_iff_exists, Option.isSome_iff_ne_none]
      intro hnone
      have hnone' : r'.inputs[index]? = none := by
        rw [List.getElem?_eq_none_iff] at hnone ⊢
        rwa [hkeeps.length_eq]
      rw [spentAmount?, spentAmount?, hnone, hnone'] at hchange
      exact hchange rfl
    obtain ⟨input, hinput⟩ := hsome
    rcases mismatch_or_escapes hr hr' hkeeps hinput (hverified index input hinput)
      (.inr hchange) with ⟨input', hinput', hmismatch⟩ | hescapes
    · exact .inl (verify_eq_invalid hinput' hmismatch hbefore)
    · exact .inr hescapes

/-! ### Reports on the main network -/

/-- A report of one input, with a valid signature. -/
def coin : Report where
  inputs := [{
    previousOutpoint := ⟨⟨.zero 32⟩, 0⟩
    signatureScript := Script.ofSignature ⟨Bytes.bigEndian 64
      0x379503b429315ef19e1d5aafbf6a367a8fb83991afbe4983eaedb48697f668372c11b81939a0ecb07091a0fa4cb101fd31acffa5b3fc4845099b2dcb8abeb4d6,
      by simp⟩
    sequence := 0
    sigOpCount := 1
    spenderAddress := some "kaspa:qrunpzspjfvvxyzfx38ct7ya2g5m2vwggkpklxdsscqlzyauuqm0ju6q2fjpa"
    spentAmount := some 5000 }]
  outputs := [⟨4000, .payToPublicKey (.zero 32)⟩]
  version := 0
  lockTime := 0
  subnetworkId := .native
  gas := 0
  payload := [1, 2, 3]

/-- A report of two inputs of one spender, with valid signatures. -/
def coins : Report :=
  { coin with inputs := coin.inputs.flatMap fun i => [
      { i with
        signatureScript := Script.ofSignature ⟨Bytes.bigEndian 64
          0xa3c1ec52c2b52ed00ea085e8518cce15fe578e1ec7d1bbb79c8727c460b6d38d3325e07e4f21608e9a1dfa379c16440d1cedf2dc4b64dac35b7447c6fdae7372,
          by simp⟩ },
      { i with
        previousOutpoint := ⟨⟨.zero 32⟩, 1⟩
        signatureScript := Script.ofSignature ⟨Bytes.bigEndian 64
          0x476dd33b4fe36af3ab7b456520aa854a73abd6337db1103cb650a3221dde7b98d2fb761a16740c14d3852843cf6b3d661739e2c02da3629dccec945c652b59e3,
          by simp⟩
        spentAmount := some 7000 }] }

/-- The report of two inputs with another lock time. -/
def lateCoins : Report := { coins with lockTime := 1 }

/-- The report of two inputs with another spent amount of the second one. -/
def largeCoins : Report :=
  { coins with inputs := coins.inputs.zipIdx.map fun (i, index) =>
      if index = 1 then { i with spentAmount := some 8000 } else i }

/-- The digests of the parts of the reported transaction. -/
def coinDigests : SharedDigests := .ofFirst
  ⟨Bytes.bigEndian 32 0x6ffb9e3f7498a4348e8e74644bf1f036b2a286a8b2f5a94a36b251dffee4ac72,
    Bytes.length_bigEndian ..⟩
  ⟨Bytes.bigEndian 32 0x2324d015f393ffe3594b6d204e69c5e5efcca21a61abfe39ec82efee3c7f350a,
    Bytes.length_bigEndian ..⟩

/-- The digests of the parts of the transaction with two inputs. -/
def coinsDigests : SharedDigests :=
  { coinDigests with
    previousOutpoints := ⟨Bytes.bigEndian 32
      0xfb6db74923a2103c7f3319690ca7c327754d305790cb1513c2f971c124c1d307, Bytes.length_bigEndian ..⟩
    sequences := ⟨Bytes.bigEndian 32
      0xe383665a83ad96d238ee6960063eda7c1b8657831cd20845100bd758f0cdcbb9, Bytes.length_bigEndian ..⟩
    sigOpCounts := ⟨Bytes.bigEndian 32
      0xab8ca69e749aef0efc6e7b5992d30363eefa4ceb2cf36cc7468ba23274a8c43e, Bytes.length_bigEndian ..⟩ }

set_option maxRecDepth 100000 in
lemma sharedDigests_coin : coin.toTransaction.sharedDigests = coinDigests := by
  apply Transaction.sharedDigests_eq_ofFirst
  · rfl
  · decide +kernel
  · decide +kernel

/-- The inputs differ, and the outputs and the payload are those of one input. -/
lemma sharedDigests_coins : coins.toTransaction.sharedDigests = coinsDigests := by
  have houtputs := congrArg SharedDigests.outputs sharedDigests_coin
  have hpayload := congrArg SharedDigests.payload sharedDigests_coin
  rw [Transaction.sharedDigests, coinsDigests, SharedDigests.mk.injEq]
  refine ⟨?_, ?_, ?_, houtputs, hpayload⟩
  · decide +kernel
  · decide +kernel
  · decide +kernel

set_option maxRecDepth 100000 in
lemma verify_coins : coins.verify Network.mainnet.resolver = .ok .valid := by
  apply verify_eq_valid (by decide)
  simp only [verdict, sharedDigests_coins]
  decide +kernel

/-- The first of the two inputs is blamed for the lock time, and the second for its amount. -/
theorem coins_detect_change :
    coins.Sized ∧ coins.verify Network.mainnet.resolver = .ok .valid ∧
      (lateCoins.Sized ∧ lateCoins.KeepsSignatures coins ∧ ¬ lateCoins.SameContents coins ∧
        (lateCoins.verify Network.mainnet.resolver = .ok (.invalid 0) ∨
          Escapes Network.mainnet.resolver coins lateCoins 0)) ∧
      largeCoins.Sized ∧ largeCoins.KeepsSignatures coins ∧ largeCoins.SameContents coins ∧
        largeCoins ≠ coins ∧
        (largeCoins.verify Network.mainnet.resolver = .ok (.invalid 1) ∨
          Escapes Network.mainnet.resolver coins largeCoins 1) := by
  have hcoins : coins.Sized := ⟨by decide, by decide⟩
  have hlate : lateCoins.Sized := ⟨by decide, by decide⟩
  have hlarge : largeCoins.Sized := ⟨by decide, by decide⟩
  have hkeepsLate : lateCoins.KeepsSignatures coins := ⟨rfl, rfl, by decide⟩
  have hkeepsLarge : largeCoins.KeepsSignatures coins := ⟨rfl, rfl, by decide⟩
  have hchanged : ¬ lateCoins.SameContents coins := by
    intro h
    exact absurd h.lockTime (by decide)
  have hsame : largeCoins.SameContents coins := ⟨rfl, rfl, rfl, rfl, rfl, rfl, rfl, rfl, rfl⟩
  have hsecond : largeCoins.spentAmount? 1 ≠ coins.spentAmount? 1 := by decide
  have hne : largeCoins ≠ coins := by
    intro h
    exact hsecond (congrArg (·.spentAmount? 1) h)
  have hlateInvalid := (verify_detects_change hcoins hlate verify_coins hkeepsLate).1 hchanged
  obtain ⟨index, hchange, hfirst, hlargeInvalid⟩ :=
    (verify_detects_change hcoins hlarge verify_coins hkeepsLarge).2 hsame hne
  have hindex : index = 1 := by
    rcases Nat.lt_trichotomy index 1 with hlt | heq | hlt
    · obtain rfl := Nat.lt_one_iff.mp hlt
      exact absurd rfl hchange
    · exact heq
    · exact absurd (hfirst 1 hlt) hsecond
  subst hindex
  exact ⟨hcoins, verify_coins, ⟨hlate, hkeepsLate, hchanged, hlateInvalid⟩, hlarge, hkeepsLarge,
    hsame, hne, hlargeInvalid⟩

end Report

end LedgerPost
