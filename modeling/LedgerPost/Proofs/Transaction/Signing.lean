import LedgerPost.Transaction.Signature
import LedgerPost.Proofs.Except
import Mathlib.Data.List.Basic

/-!
# Signed transactions

Signing succeeds when there is one consumed output for each input. It changes nothing but the
signature scripts, and no digest covers those.
-/

namespace LedgerPost

/-- The input without its signature script. -/
def Input.cleared (i : Input) : Input := { i with signatureScript := [] }

namespace Transaction

/-- The digest that is signed for an input of a transaction. -/
def digestFor (tx : Transaction) (input : Input) (spent : SpentOutput) : Block 32 :=
  signingHash (tx.signedBytes tx.sharedDigests input spent)

/-- An input of a transaction with a signature script. -/
def sealInput (tx : Transaction) (key : SecretKey) (input : Input) (spent : UnspentOutput) :
    Input :=
  { input with
    signatureScript := Script.ofSignature (Schnorr.sign key (tx.digestFor input spent.spent)) }

/-- The signature scripts of the inputs of a transaction. -/
def signatureScripts (tx : Transaction) (key : SecretKey) (spent : List UnspentOutput) :
    List Bytes :=
  tx.inputs.zipWith (fun i u => (tx.sealInput key i u).signatureScript) spent

/-- A transaction with a signature of each input. -/
def signed (tx : Transaction) (key : SecretKey) (spent : List UnspentOutput) : Transaction :=
  { tx with inputs := tx.inputs.zipWith (tx.sealInput key) spent }

variable {tx tx' : Transaction} {key : SecretKey} {spent : List UnspentOutput}

/-! ### Digests -/

lemma unsigned_eq (tx : Transaction) :
    tx.unsigned = { tx with inputs := tx.inputs.map Input.cleared } := rfl

@[simp] lemma sharedDigests_unsigned (tx : Transaction) :
    tx.unsigned.sharedDigests = tx.sharedDigests := by
  have hpayload : tx.unsigned.payloadDigest = tx.payloadDigest := rfl
  simp only [sharedDigests, hpayload]
  simp [unsigned_eq, Input.cleared, List.flatMap_map, Function.comp_def]

/-- A digest does not cover signature scripts. -/
lemma digestFor_congr {i i' : Input} {s : SpentOutput} (htx : tx.unsigned = tx'.unsigned)
    (hi : i.cleared = i'.cleared) : tx.digestFor i s = tx'.digestFor i' s := by
  have hshared : tx.sharedDigests = tx'.sharedDigests := by
    rw [← sharedDigests_unsigned tx, htx, sharedDigests_unsigned]
  simp only [unsigned_eq, mk.injEq] at htx
  simp only [Input.cleared, Input.mk.injEq] at hi
  simp [digestFor, signedBytes, hshared, htx, hi]

/-! ### Signing -/

lemma inputDigest_eq_ok {index : Nat} {i : Input} {s : SpentOutput}
    (h : tx.inputs[index]? = some i) :
    tx.inputDigest tx.sharedDigests index s = .ok (tx.digestFor i s) := by
  rw [inputDigest, h]
  rfl

/-- No digest is out of range when there is one consumed output for each input. -/
lemma mapM_signatureScript (h : spent.length = tx.inputs.length) :
    (spent.zipIdx.mapM fun p => signatureScript key tx tx.sharedDigests p.2 p.1.spent) =
      .ok (tx.signatureScripts key spent) := by
  have hscripts : spent.zipIdx.mapM
        (fun p => signatureScript key tx tx.sharedDigests p.2 p.1.spent) =
      .ok (spent.zipIdx.map fun p =>
        (tx.inputs[p.2]?.elim [] fun i => (tx.sealInput key i p.1).signatureScript)) := by
    apply mapM_eq_ok
    rintro ⟨u, index⟩ hmem
    have hindex : index < tx.inputs.length := by
      have := List.snd_lt_of_mem_zipIdx hmem
      omega
    have hinput := List.getElem?_eq_getElem hindex
    rw [signatureScript, inputDigest_eq_ok hinput, hinput]
    rfl
  rw [hscripts]
  refine congrArg Except.ok (List.ext_getElem ?_ ?_)
  · simp [signatureScripts, h]
  · intro n h₁ h₂
    have hn : n < tx.inputs.length := by
      simp only [signatureScripts, List.length_zipWith] at h₂
      omega
    simp [signatureScripts, hn]

/-- The signed transaction has the scripts that were found, each on its input. -/
lemma signed_eq (tx : Transaction) (key : SecretKey) (spent : List UnspentOutput) :
    tx.signed key spent =
      { tx with
        inputs := tx.inputs.zipWith (fun input script => { input with signatureScript := script })
          (tx.signatureScripts key spent) } := by
  simp only [signed, mk.injEq, true_and, and_true]
  apply List.ext_getElem
  · simp [signatureScripts]
  · intro n h₁ h₂
    simp [signatureScripts, sealInput]

/-- Signing answers with the signed transaction when no input lacks a consumed output. -/
theorem sign_eq_ok (h : spent.length = tx.inputs.length) :
    tx.sign spent key = .ok (tx.signed key spent) := by
  rw [sign, if_neg (by omega)]
  change (spent.zipIdx.mapM fun p => signatureScript key tx tx.sharedDigests p.2 p.1.spent) >>= _
    = _
  rw [mapM_signatureScript h, signed_eq]
  rfl

/-- Signing is refused when an input lacks a consumed output, or an output lacks an input. -/
lemma sign_eq_error (h : spent.length ≠ tx.inputs.length) :
    tx.sign spent key = .error (.spentCountMismatch tx.inputs.length spent.length) := by
  rw [sign, if_pos h]

/-- A signed transaction with inputs is fully signed. -/
lemma isFullySigned_signed (h : spent.length = tx.inputs.length) (hne : spent ≠ []) :
    (tx.signed key spent).isFullySigned = true := by
  have hinputs : tx.inputs ≠ [] := by
    rw [← List.length_pos_iff, ← h, List.length_pos_iff]
    exact hne
  simp only [isFullySigned, signed, Bool.and_eq_true, Bool.not_eq_true', List.isEmpty_eq_false_iff,
    List.all_eq_true, ne_eq, List.zipWith_eq_nil_iff, not_or]
  refine ⟨⟨hinputs, hne⟩, ?_⟩
  intro i hi
  rw [← List.map_uncurry_zip_eq_zipWith] at hi
  obtain ⟨⟨input, u⟩, -, rfl⟩ := List.mem_map.mp hi
  exact List.cons_ne_nil _ _

lemma cleared_sealInput (i : Input) (u : UnspentOutput) :
    (tx.sealInput key i u).cleared = i.cleared := rfl

/-- What is read off the signed inputs is what is read off the inputs, if no signature matters. -/
lemma map_signed_inputs {α : Type} {f g : Input → α} (h : spent.length = tx.inputs.length)
    (hf : ∀ i u, f (tx.sealInput key i u) = g i) :
    (tx.signed key spent).inputs.map f = tx.inputs.map g := by
  apply List.ext_getElem
  · simp [signed, h]
  · intro n h₁ h₂
    simp only [signed, List.getElem_map, List.getElem_zipWith]
    exact hf _ _

/-- Signing changes nothing but signature scripts. -/
lemma unsigned_signed (h : spent.length = tx.inputs.length) :
    (tx.signed key spent).unsigned = tx.unsigned := by
  rw [unsigned_eq, unsigned_eq, map_signed_inputs h cleared_sealInput]
  rfl

end Transaction

/-! ### A transaction of one input

The digests of its parts are evaluated one by one, since all at once would take up much more memory.
-/

/-- The least secret key. -/
def SecretKey.one : SecretKey := ⟨1, by decide, by decide⟩

/-- The input that consumes the first output of the transaction that is called zero. -/
def Input.first : Input := .unsigned ⟨⟨.zero 32⟩, 0⟩

/-- The digests of a transaction of that input, from those of its outputs and its payload. -/
def SharedDigests.ofFirst (outputs payload : Block 32) : SharedDigests where
  previousOutpoints := ⟨Bytes.bigEndian 32
    0x09a74bfd74b950f5138e0d312c2c16b71baa84c1fe7938470770c9dea8919151, Bytes.length_bigEndian ..⟩
  sequences := ⟨Bytes.bigEndian 32
    0x0f99135614633e507969d12522c80f967cff6ebc0436863e02ee42b2b66556fc, Bytes.length_bigEndian ..⟩
  sigOpCounts := ⟨Bytes.bigEndian 32
    0x8523b0471bcbea04575ccaa635eef9f9114f2890bda54367e5ff8caa3878bf82, Bytes.length_bigEndian ..⟩
  outputs := outputs
  payload := payload

set_option maxRecDepth 100000 in
lemma Transaction.sharedDigests_eq_ofFirst {tx : Transaction} {outputs payload : Block 32}
    (hin : tx.inputs.map Input.cleared = [.first])
    (hout : signingHash (tx.outputs.flatMap Output.signedBytes) = outputs)
    (hpayload : tx.payloadDigest = payload) :
    tx.sharedDigests = .ofFirst outputs payload := by
  rw [← sharedDigests_unsigned, unsigned_eq, hin, sharedDigests, SharedDigests.ofFirst,
    SharedDigests.mk.injEq]
  dsimp only
  refine ⟨?_, ?_, ?_, hout, hpayload⟩
  · decide +kernel
  · decide +kernel
  · decide +kernel

end LedgerPost
